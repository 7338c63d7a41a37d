import Weaver.Authority.Genesis
import Weaver.Authority.Safety

/-!
# The history of an authority

`authority_history`: whatever processes do on the stores of an authority, in every reachable state
the records hold a chain of envelopes, and no record of the history is ever changed or removed. A
handle may be stale in every way that the source allows: its head, its configuration and the two
versions that it cached may each be from a different time.
-/

namespace Weaver

open Checked Wire Versioned Program

variable [Crypto]

def anyProcess (manifest : Bytes) : Rules (authorityApi manifest) where
  Spawn _ handle := handle = none
  Start _ _ _ := True

theorem authority_alone {manifest : Bytes} {R : Rules (authorityApi manifest)} {w w' : Stores}
    {handle handle' : Option Authority} {request : AuthorityRequest}
    {reply : Except AuthorityError request.Value} (log : List (Event (authorityApi manifest)))
    (hstart : R.Start (.alone _ w handle log) handle request)
    (hrun : (authorityBody manifest request handle).run serve w = ((reply, handle'), w')) :
    Steps R (.alone _ w handle log) (.alone _ w' handle' (log ++ [⟨request, reply⟩])) :=
  Steps.alone log storeMachine_serve hstart hrun

def authorityVerified {I : Identity} {manifest : Bytes} (hI : I.Describes manifest)
    (R : Rules (authorityApi manifest)) (hspawn : ∀ P handle, R.Spawn P handle → handle = none) :
    Verified R where
  contract := authorityContract I
  Guarantee := Guarantee I
  Holds handle w := ∀ self : Authority, handle = some self → self.Sound I w
  Records event w := ∀ value, event.reply = .ok value → event.call.Recorded I value w
  allows := guarantee_allows I
  holds_stable handle w w' hle _ h := fun self hself => AuthorityLe.handle hle (h self hself)
  records_stable event w w' hle _ h :=
    fun value hvalue => AuthorityLe.recorded hle event.call value (h value hvalue)
  spawn P handle _ h := by
    intro self hself
    rw [hspawn P handle h] at hself
    cases hself
  start P handle request hinv _ hs _ := authorityBody_safe hI hinv request handle hs

/-- On the stores of an initialized authority, and for any interleaving of any processes, the
records always hold a chain of envelopes that ends with the current one, and what the history holds
it holds for good: no two envelopes are ever committed for one revision. -/
theorem authority_history {options : AuthorityInit} {random : InitRandomness} {manifest : Bytes}
    {init : InitializedAuthority} {w : Stores}
    (hinit : ( Authority.initialize options random).run serve Stores.empty =
      (.ok (manifest, init), w))
    {P P' : Pool (authorityApi manifest)} (hP : Reachable (anyProcess manifest) w P)
    (hP' : Steps (anyProcess manifest) P P') :
    (∃ last, Chain init.status.networkId P.world last) ∧
      (∀ r record,
        P.world.record (.authority init.status.networkId) (historyKey r) = some record →
        P'.world.record (.authority init.status.networkId) (historyKey r) = some record) ∧
      ∀ e e', Committed init.status.networkId P.world e →
        Committed init.status.networkId P'.world e' → e.revision = e'.revision → e = e' := by
  obtain ⟨g, hg, hnetwork⟩ := initialize_spec hinit
  rw [hnetwork]
  let V := authorityVerified hg.describes (anyProcess manifest) fun _ _ h => h
  have hgood : V.Good P := Verified.good hg.inv hP
  have hle : AuthorityLe (g.identity random) P.world P'.world := (hgood.steps hP').2
  refine ⟨hgood.inv.chain, hle.history, ?_⟩
  intro e e' he he' hrev
  have hlater : Committed (g.identity random).network P'.world e := hle.committed he
  exact Committed.unique hlater he' hrev

end Weaver

namespace Weaver.Sample

open Checked Wire Program Transparent

/-- On the sample authority's stores, a process that opens a handle leaves a chain, and every
envelope that was committed before. -/
theorem authority_history_sample : ∃ (init : InitializedAuthority)
    (o : (Except AuthorityError Unit × Option Authority) × Stores),
    (authorityBody manifest (.open 1000) none).run serve stores = o ∧
    (∃ last, Chain init.status.networkId o.2 last) ∧
      ∀ e e', Committed init.status.networkId stores e →
        Committed init.status.networkId o.2 e' → e.revision = e'.revision → e = e' := by
  obtain ⟨init, hinit⟩ := initialize_eq_ok
  obtain ⟨o, ho⟩ : ∃ o, (authorityBody manifest (.open 1000) none).run serve stores = o := ⟨_, rfl⟩
  have halone : Reachable (anyProcess manifest) stores (.alone _ stores none []) :=
    Reachable.alone (show (anyProcess manifest).Spawn _ none from rfl)
  have hopen := authority_alone (R := anyProcess manifest) [] trivial ho
  have hafter := authority_history hinit (halone.trans hopen) .refl
  have hboth := authority_history hinit halone hopen
  exact ⟨init, o, ho, hafter.1, hboth.2.2⟩

/-! ## A sample redemption -/

def appRoot : AppRootKey := ⟨⟨fill 30⟩⟩

def serviceName : VirtualName := ⟨"files.virtual", by decide⟩

def registration : AppRegistrationRequest :=
  AppRegistrationRequest.create appRoot root.public.networkId 0

def preparing : Except CertificateError PreparedJoinRequest :=
  PreparedJoinRequest.create root.public.networkId ⟨fill 40⟩ (fill 41) (fill 42) (fill 43) .member
    50000

abbrev Solo := Option Authority × Stores

def Solo.perform (s : Solo) (request : AuthorityRequest) : Option (request.Value × Solo) :=
  match (authorityBody manifest request s.1).run serve s.2 with
  | ((.ok value, handle), w) => some (value, handle, w)
  | ((.error _, _), _) => none

variable {request : AuthorityRequest} {value : request.Value}

theorem Solo.perform_eq_some {s s' : Solo} :
    s.perform request = some (value, s') ↔
      (authorityBody manifest request s.1).run serve s.2 = ((.ok value, s'.1), s'.2) := by
  unfold Solo.perform
  rcases (authorityBody manifest request s.1).run serve s.2 with ⟨⟨_ | v, handle⟩, w⟩
  · simp
  · obtain ⟨handle', w'⟩ := s'
    simp only [Option.some.injEq, Prod.mk.injEq, Except.ok.injEq, and_assoc]

theorem Solo.steps {handle handle' : Option Authority} {w w' : Stores}
    (h : Solo.perform (handle, w) request = some (value, handle', w'))
    {R : Rules (authorityApi manifest)} {log : List (Event (authorityApi manifest))}
    (hstart : R.Start (.alone _ w handle log) handle request) :
    Steps R (.alone _ w handle log)
      (.alone _ w' handle' (log ++ [⟨request, (.ok value : Except AuthorityError _)⟩])) :=
  authority_alone log hstart (Solo.perform_eq_some.mp h)

/-- A process reaches what its first call leaves. -/
theorem Solo.reaches {handle' : Option Authority} {w w' : Stores} {R : Rules (authorityApi manifest)}
    (hspawn : R.Spawn (.initial _ w) none)
    (h : Solo.perform (none, w) request = some (value, handle', w'))
    (hstart : R.Start (.alone _ w none []) none request) :
    Reachable R w (.alone _ w' handle' [⟨request, (.ok value : Except AuthorityError _)⟩]) :=
  (Reachable.alone hspawn).trans (Solo.steps h hstart)

theorem valid_fifty : Crypto.validEndpoint (fill 50) = true := rfl

theorem valid_eight : Crypto.validEndpoint (fill 8) = true := rfl

def redeeming : Option (PreparedJoinRequest × InvitationBundle × JoinTicket × Solo) := do
  let prepared ← preparing.toOption
  let (_, s) ← Solo.perform (none, stores) (.open 1000)
  let (_, s) ← s.perform (.call (.registerApp registration 1000 sealing))
  let (invitation, s) ← s.perform (.call (.createInvitation ⟨fill 50, rfl⟩ [] none appRoot.appAddr
    serviceName 1000 50000 (some (fill 60))))
  let (ticket, s) ← s.perform (.call (.redeemInvitation invitation prepared appRoot 1100
    (some epochSecrets) sealing))
  return (prepared, invitation, ticket, s)

theorem redeeming_isSome : redeeming.isSome = true := by decide +kernel

end Weaver.Sample
