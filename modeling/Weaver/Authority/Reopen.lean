import Weaver.Authority.Tenure

/-!
# Reopening an authority

After a successful operation, `Authority::open` builds the handle that the operation has left, field
by field, or fails because the current configuration does not validate at the time
(`reopening_authority`). It does validate at the time of the operation when the operation has
committed it. The one operation that succeeds without committing is a redemption that is answered
from the record of a consumed invitation: it looks at the invitation and the request only, so that
it also succeeds when the current configuration has an expired entry (`retry_then_open`).
-/

namespace Weaver

open Checked Wire Collect Versioned Program

variable [Crypto]

/-! ## The handle of a session -/

section Session

variable {options : AuthorityInit} {random : InitRandomness} {g : Genesis} {manifest : Bytes}
  {w w' : Stores} {log : List (Event (authorityApi manifest))} {handle : Option Authority}

theorem NamedOnly.succeeded (h : NamedOnly log) {c : AuthorityCall} (hc : Succeeded log c) :
    c.Named := by
  obtain ⟨value, hmem⟩ := hc
  exact h _ hmem c rfl

/-- `open` on the stores of a session of named operations builds the handle of the session, whenever
it succeeds, and it succeeds while the configuration of the handle is valid. -/
theorem Session.open_iff (hideal : HpkeIdeal) (hg : Initialized options random g manifest w)
    {self : Authority} (hsession : Session manifest none w log (some self) w')
    (hnamed : NamedOnly log) (nowMs : UInt64) (self' : Authority) (w'' : Stores) :
    (Authority.open manifest nowMs).run serve w' = (.ok self', w'') ↔
      self' = self ∧ w'' = w' ∧
        self.config.asConfig.Acceptable g.root.public g.root.public.networkId nowMs := by
  have hwork := (hsession.atWork hg.describes (AtWork.start hg.inv)).1
  have harchive := hsession.archive hg.describes (AtWork.start hg.inv)
  obtain ⟨last, hchain⟩ := hwork.inv.chain
  obtain ⟨c, hgoverned⟩ := harchive.governed hideal hg (fun _ => hnamed.succeeded) hchain.committed
  have hholds := hsession.holds hideal hg rfl
  have hsynced := hwork.synced self last rfl hchain
  have hconfig := (hgoverned.published.content_iff hideal).mp (hwork.current hchain)
  rw [open_eq_ok hg.describes hchain, hgoverned.openedOn_iff hideal hg harchive.le, hconfig]
  constructor
  · rintro ⟨⟨hholds', hsynced', hconfig', hvalid⟩, rfl⟩
    exact ⟨hholds'.unique hsynced' hholds hsynced (hconfig'.trans hconfig.symm), rfl, hvalid⟩
  · rintro ⟨rfl, rfl, hvalid⟩
    exact ⟨⟨hholds, hsynced, hconfig, hvalid⟩, rfl⟩

end Session

/-! ## After an operation -/

/-- On the stores of an initialized authority, after any session of named operations and one more
that succeeds at a time: `open` at that time succeeds and builds the very handle that the operation
has left, unless the operation is a redemption that has changed neither the handle nor the stores;
and whenever `open` succeeds, at that time or another, it builds this handle. -/
theorem reopening_authority (hideal : HpkeIdeal) {options : AuthorityInit} {random : InitRandomness}
    {manifest : Bytes} {init : InitializedAuthority} {w : Stores}
    (hinit : ( Authority.initialize options random).run serve Stores.empty =
      (.ok (manifest, init), w))
    {log : List (Event (authorityApi manifest))} {self : Authority} {w₁ : Stores}
    (hsession : Session manifest none w log (some self) w₁) (hnamed : NamedOnly log)
    {c : AuthorityCall} (hc : c.Named) {nowMs : UInt64} (htime : c.time = some nowMs)
    {value : c.Value} {self' : Authority} {w₂ : Stores}
    (hrun : (self.perform c).run serve w₁ = ((.ok value, self'), w₂)) :
    ((Authority.open manifest nowMs).run serve w₂ = (.ok self', w₂) ∨
      (∃ invitation prepared, AuthorityRequest.Redeems invitation prepared (.call c)) ∧
        self' = self ∧ w₂ = w₁) ∧
    ∀ t self'' w₃, (Authority.open manifest t).run serve w₂ = (.ok self'', w₃) →
      self'' = self' ∧ w₃ = w₂ := by
  obtain ⟨g, hg, -⟩ := initialize_spec hinit
  have hI := hg.describes
  have hbody : (authorityBody manifest (.call c) (some self)).run serve w₁ =
      ((.ok value, some self'), w₂) :=
    authorityBody_call_eq_ok.mpr ⟨self, self', rfl, rfl, hrun⟩
  have hafter : Session manifest none w (⟨.call c, (.ok value : Except AuthorityError _)⟩ :: log)
      (some self') w₂ := .cons _ _ hsession hbody
  have hnamed' : NamedOnly (⟨.call c, (.ok value : Except AuthorityError _)⟩ :: log :
      List (Event (authorityApi manifest))) := by
    intro event hmem c' hcall
    rcases List.mem_cons.mp hmem with rfl | hmem
    · rw [← AuthorityRequest.call.inj hcall]
      exact hc
    · exact hnamed event hmem c' hcall
  have hopen := hafter.open_iff hideal hg hnamed'
  refine ⟨?_, ?_⟩
  · have hwork := (hsession.atWork hI (AtWork.start hg.inv)).1
    obtain ⟨-, -, hturn⟩ := hwork.step hI hbody
    cases hturn with
    | opened _ _ _ hreq => cases hreq
    | stayed _ heq hfailed hunchanged =>
      -- a call with a time commits a configuration only, or redeems an invitation
      have hredeems : ∃ invitation prepared,
          AuthorityRequest.Redeems invitation prepared (.call c) := by
        cases c with
        | redeemInvitation invitation prepared => exact ⟨invitation, prepared, rfl, rfl⟩
        | redeemInvitationOnline invitation prepared => exact ⟨invitation, prepared, rfl, rfl⟩
        | createInvitation => cases htime
        | revokeInvitation => cases htime
        | installEnrollmentAppRoot => cases htime
        | configUpdatesAfter => cases htime
        | _ => cases hfailed trivial
      obtain ⟨invitation, prepared, hredeem⟩ := hredeems
      exact .inr ⟨⟨invitation, prepared, hredeem⟩, Option.some.inj heq,
        hunchanged invitation prepared hredeem⟩
    | moved self₀ c₀ next now draws rest e opened moved hself hcall hplans hmoved hrest _ heq _ =>
      obtain rfl := Option.some.inj hself
      obtain rfl := AuthorityRequest.call.inj hcall
      obtain rfl := Option.some.inj heq
      obtain rfl := Option.some.inj (htime.symm.trans hplans.time)
      obtain ⟨last, -, hcommits⟩ := hmoved.grows (hwork.sound self rfl) hwork.inv hrest
      have hvalid := (hcommits c hplans).published hideal
      refine .inl ((hopen nowMs self' w₂).mpr ⟨rfl, rfl, ?_⟩)
      rw [(hmoved.config_eq hideal).2]
      exact hvalid.2
  · intro t self'' w₃ ht
    obtain ⟨rfl, rfl, -⟩ := (hopen t self'' w₃).mp ht
    exact ⟨rfl, rfl⟩

end Weaver

namespace Weaver.Sample

open Checked Wire Program Transparent

/-- A relay of the authority is registered for a short time, an invitation is redeemed, and after the
relay has expired the redemption is repeated and the authority opened. -/
def retrying : Option (PreparedJoinRequest × InvitationBundle × Solo × JoinTicket × Solo ×
    AuthorityError) := do
  let prepared ← preparing.toOption
  let (_, s) ← Solo.perform (none, stores) (.open 1000)
  let (_, s) ← s.perform (.call (.registerApp registration 1000 sealing))
  let (invitation, s) ← s.perform (.call (.createInvitation ⟨fill 50, valid_fifty⟩ [] none
    appRoot.appAddr serviceName 1000 50000 (some (fill 60))))
  let (_, s) ← s.perform (.call (.registerRelay ⟨fill 8, rfl⟩ "https://brief" .dataRelay 1200 1000
    sealing))
  let (_, s) ← s.perform (.call (.redeemInvitation invitation prepared appRoot 1100
    (some epochSecrets) sealing))
  let (ticket, s') ← s.perform (.call (.redeemInvitation invitation prepared appRoot 1300
    (some epochSecrets) sealing))
  match (Authority.open manifest 1300).run serve s'.2 with
  | (.error e, _) => some (prepared, invitation, s, ticket, s', e)
  | (.ok _, _) => none

set_option maxRecDepth 100000 in
theorem retrying_isSome : retrying.isSome = true := by decide +kernel

/-- After the registration of an application, the authority is reopened with the handle that it
has. -/
theorem reopening_authority_sample : ∃ (self : Authority) (w : Stores),
    (Authority.open manifest 1000).run serve w = (.ok self, w) := by
  obtain ⟨init, hinit⟩ := initialize_eq_ok
  obtain ⟨_, hr⟩ := Option.isSome_iff_exists.mp retrying_isSome
  unfold retrying at hr
  simp only [Option.bind_eq_bind, Option.bind_eq_some_iff, Prod.exists] at hr
  obtain ⟨prepared, -, _, h₁, w₁, hopen, _, h₂, w₂, hregister, -⟩ := hr
  obtain ⟨self, self', rfl, -, hrun⟩ :=
    authorityBody_call_eq_ok.mp (Solo.perform_eq_some.mp hregister)
  have hnamed : NamedOnly [(⟨.open 1000, .ok ()⟩ : Event (authorityApi manifest))] := by
    intro event hmem c hcall
    rw [List.mem_singleton.mp hmem] at hcall
    cases hcall
  obtain ⟨hreopen | ⟨⟨_, _, hredeems⟩, -⟩, -⟩ := reopening_authority hpkeIdeal hinit
    (Solo.session .nil hopen) hnamed (c := .registerApp registration 1000 sealing) trivial rfl hrun
  · exact ⟨self', w₂, hreopen⟩
  · cases hredeems

/-- The repeated redemption succeeds at a time at which the authority does not open. -/
theorem retry_then_open : ∃ (log : List (Event (authorityApi manifest))) (self self' : Authority)
    (w₁ w₂ w₃ : Stores) (invitation : InvitationBundle) (prepared : PreparedJoinRequest)
    (ticket : JoinTicket) (e : AuthorityError),
    Session manifest none stores log (some self) w₁ ∧ NamedOnly log ∧
      (self.redeemInvitation invitation prepared appRoot 1300 (some epochSecrets) sealing).run serve
        w₁ = (.ok (ticket, self'), w₂) ∧
      (Authority.open manifest 1300).run serve w₂ = (.error e, w₃) := by
  obtain ⟨_, hr⟩ := Option.isSome_iff_exists.mp retrying_isSome
  unfold retrying at hr
  simp only [Option.bind_eq_bind, Option.bind_eq_some_iff, Prod.exists] at hr
  obtain ⟨prepared, -, _, h₁, w₁, hopen, _, h₂, w₂, hregister, invitation, h₃, w₃, hcreate, _, h₄,
    w₄, hrelay, _, h₅, w₅, hredeem, ticket, h₆, w₆, hretry, hr⟩ := hr
  obtain ⟨self, self', rfl, rfl, hrun⟩ :=
    authorityBody_call_eq_ok.mp (Solo.perform_eq_some.mp hretry)
  have hsession := Solo.session (Solo.session (Solo.session (Solo.session
    (Solo.session .nil hopen) hregister) hcreate) hrelay) hredeem
  split at hr
  · next e w₇ hfailed =>
    refine ⟨_, self, self', w₅, w₆, w₇, invitation, prepared, ticket, e, hsession, ?_, ?_, hfailed⟩
    · intro event hmem c hcall
      simp only [List.mem_cons, List.not_mem_nil, or_false] at hmem
      rcases hmem with rfl | rfl | rfl | rfl | rfl <;> cases hcall <;> trivial
    · rcases updating_run hrun with ⟨_, -, herror, -⟩ | ⟨_, hx, hok⟩
      · cases herror
      · rw [Except.ok.inj hok]
        exact hx
  · cases hr

end Weaver.Sample
