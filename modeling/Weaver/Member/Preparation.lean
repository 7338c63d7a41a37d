import Weaver.Lib.Phases
import Weaver.Member.Membership
import Weaver.Store.Rules

/-!
# Preparing to join, from many places at once

Any number of processes call `prepare_join` for one network, on the same stores. The three secrets
and the prepared request are each created once: a secret is never overwritten, and the request is
committed only where there is none. So the processes converge (`prepareJoin_converges`): whatever
the order of their requests to the stores, whichever of them stop on the way, and whether or not the
backend reports what it has done, they all return the one request that is stored, and its keys are
those of the sealed secrets.

`Preparing` is the invariant of the stores, `prepareJoin_safe` the step from one process to all.
-/

namespace Weaver

open Checked Wire Versioned Program

variable [Crypto]

/-! ## What is stored -/

structure MemberKeys (networkId : NetworkId) (s : SecretStore)
    (signing encryption endpoint : Bytes32) : Prop where
  signing : ∃ key : SigningKeypair,
    s.open (memberSecretId networkId "member-signing") = .ok key.toBytes.val ∧
      key.publicBytes = signing
  encryption : ∃ key : MemberEncryptionKeypair,
    s.open (memberSecretId networkId "member-encryption") = .ok key.secretBytes.val ∧
      key.publicBytes = encryption
  endpoint : ∃ key : Bytes32,
    s.open (memberSecretId networkId "endpoint") = .ok key.val ∧
      Crypto.endpointPublic key = endpoint

def PreparedJoinRequest.KeysIn (p : PreparedJoinRequest) (networkId : NetworkId)
    (s : SecretStore) : Prop :=
  MemberKeys networkId s p.request.payload.signingPublicKey p.request.payload.encryptionPublicKey
    p.request.payload.endpointId

def PreparedJoinRequest.StoredIn (p : PreparedJoinRequest) (networkId : NetworkId)
    (w : Stores) : Prop :=
  (∃ version, w.record (.member networkId) keyPreparedJoin = some ⟨version, p.toBytes⟩) ∧
    p.KeysIn networkId w.secrets

def Preparing (networkId : NetworkId) (w : Stores) : Prop :=
  ∀ record, w.record (.member networkId) keyPreparedJoin = some record →
    ∃ p : PreparedJoinRequest, record.bytes = p.toBytes ∧ p.KeysIn networkId w.secrets

def SecretStore.Sub (s s' : SecretStore) : Prop :=
  ∀ id secret, s.open id = .ok secret → s'.open id = .ok secret

theorem MemberKeys.mono {networkId : NetworkId} {s s' : SecretStore}
    {signing encryption endpoint : Bytes32} (h : MemberKeys networkId s signing encryption endpoint)
    (hsub : s.Sub s') : MemberKeys networkId s' signing encryption endpoint := by
  obtain ⟨⟨k₁, hopen₁, hkey₁⟩, ⟨k₂, hopen₂, hkey₂⟩, ⟨k₃, hopen₃, hkey₃⟩⟩ := h
  exact ⟨⟨k₁, hsub _ _ hopen₁, hkey₁⟩, ⟨k₂, hsub _ _ hopen₂, hkey₂⟩, ⟨k₃, hsub _ _ hopen₃, hkey₃⟩⟩

/-! ## How the stores change -/

section Contract

variable (networkId : NetworkId)

/-- How the stores change while requests are prepared: secrets are added, and a prepared request
stays as it is. The other records of the member are not touched. -/
structure PreparingLe (w w' : Stores) : Prop where
  secrets : w.secrets.Sub w'.secrets
  prepared : ∀ record, w.record (.member networkId) keyPreparedJoin = some record →
    w'.record (.member networkId) keyPreparedJoin = some record
  other : ∀ key, key ≠ keyPreparedJoin →
    w'.record (.member networkId) key = w.record (.member networkId) key

def preparingContract : Contract Stores where
  Inv := Preparing networkId
  Le := PreparingLe networkId
  refl _ := ⟨fun _ _ h => h, fun _ h => h, fun _ _ => rfl⟩
  trans h h' := ⟨fun id secret hopen => h'.secrets id secret (h.secrets id secret hopen),
    fun record hrecord => h'.prepared record (h.prepared record hrecord),
    fun key hkey => (h'.other key hkey).trans (h.other key hkey)⟩

/-- What `prepare_join` may do in one step: it seals a secret, or it stores a request whose keys
are sealed, where there is neither a request nor a head. -/
structure PrepareStep (w w' : Stores) : Prop where
  secrets : w.secrets.Sub w'.secrets
  prepared : w'.record (.member networkId) keyPreparedJoin =
      w.record (.member networkId) keyPreparedJoin ∨
    w.record (.member networkId) keyPreparedJoin = none ∧
      w.record (.member networkId) configHeadKey = none ∧
      ∃ p : PreparedJoinRequest, p.StoredIn networkId w'
  other : ∀ key, key ≠ keyPreparedJoin →
    w'.record (.member networkId) key = w.record (.member networkId) key

variable {networkId}

theorem preparing_allows : (preparingContract networkId).Allows (PrepareStep networkId) := by
  intro w w' hinv hstep
  refine ⟨?_, ⟨hstep.secrets, ?_, hstep.other⟩⟩
  · intro record hrecord
    rcases hstep.prepared with hsame | ⟨-, -, p, ⟨version, hp⟩, hkeys⟩
    · rw [hsame] at hrecord
      obtain ⟨p, hbytes, hkeys⟩ := hinv record hrecord
      exact ⟨p, hbytes, hkeys.mono hstep.secrets⟩
    · rw [hp] at hrecord
      obtain rfl := Option.some.inj hrecord
      exact ⟨p, rfl, hkeys⟩
  · intro record hrecord
    rcases hstep.prepared with hsame | ⟨hnone, -, -⟩
    · rw [hsame]
      exact hrecord
    · rw [hnone] at hrecord
      cases hrecord

theorem PrepareStep.refl (w : Stores) : PrepareStep networkId w w :=
  ⟨fun _ _ h => h, .inl rfl, fun _ _ => rfl⟩

theorem PrepareStep.seal (w : Stores) (id : SecretId) (plaintext : Bytes) :
    PrepareStep networkId w { w with secrets := (w.secrets.seal id plaintext).2 } :=
  ⟨fun _ _ h => SecretStore.open_seal_of_ok h, .inl rfl, fun _ _ => rfl⟩

theorem storedIn_stable (p : PreparedJoinRequest) :
    (preparingContract networkId).Stable fun w => p.StoredIn networkId w ∧
      w.record (.member networkId) configHeadKey = none := by
  rintro w w' hle _ ⟨⟨⟨version, hrecord⟩, hkeys⟩, hhead⟩
  refine ⟨⟨⟨version, hle.prepared _ hrecord⟩, hkeys.mono hle.secrets⟩, ?_⟩
  rw [hle.other configHeadKey (by decide)]
  exact hhead

end Contract

/-! ## One process -/

section Safe

variable {networkId : NetworkId} {w : Stores}

theorem loadSecret32_safe (label : String) :
    Safe storeMachine (preparingContract networkId) (PrepareStep networkId)
      (loadSecret32 networkId label)
      (OnOk fun secret w => w.secrets.open (memberSecretId networkId label) = .ok secret.val) w := by
  refine Safe.request ?_
  intro w₁ _ _ answer w₂ hstep
  obtain ⟨rfl, hanswer⟩ := storeMachine_open hstep
  refine ⟨.refl _, ?_⟩
  intro secret hsecret
  obtain ⟨bytes, hbytes, hsized⟩ := bind_eq_ok.mp hsecret
  have hopen := hanswer bytes (mapError_eq_ok.mp hbytes)
  unfold secret32 at hsized
  split at hsized
  · obtain rfl := Except.ok.inj hsized
    exact hopen
  · cases hsized

theorem loadOrCreate_safe {κ : Type} {label : String} {parse : Bytes32 → Except MembershipError κ}
    {generated : Except MembershipError κ} {toBytes : κ → Bytes32}
    {load : StoreTask MembershipError κ}
    (hparse : ∀ secret key, parse secret = .ok key → toBytes key = secret)
    (hload : ∀ w, Preparing networkId w →
      Safe storeMachine (preparingContract networkId) (PrepareStep networkId) load
        (OnOk fun key w => w.secrets.open (memberSecretId networkId label) =
          .ok (toBytes key).val) w) :
    Safe storeMachine (preparingContract networkId) (PrepareStep networkId)
      (loadOrCreate networkId label parse generated toBytes load)
      (OnOk fun key w => w.secrets.open (memberSecretId networkId label) =
        .ok (toBytes key).val) w := by
  unfold loadOrCreate
  refine Safe.tryOpenSecret_andThen PrepareStep.refl ?_
  intro w₁ _ _ opened hopened
  split
  · next bytes =>
    -- the secret was there
    refine Safe.lift ?_
    intro key hkey
    obtain ⟨secret, hsized, hkey⟩ := bind_eq_ok.mp hkey
    unfold secret32 at hsized
    split at hsized
    · obtain rfl := Except.ok.inj hsized
      rw [hparse _ _ hkey]
      exact hopened bytes rfl
    · cases hsized
  · refine Safe.lift_andThen fun key _ => ?_
    refine Safe.trySealSecret_andThen PrepareStep.refl (fun w _ => PrepareStep.seal w _ _) ?_
    intro w₂ _ hinv₂ answer w₃ hstep hsealed
    split
    · exact Safe.pure (hsealed () rfl)
    · exact hload w₃ (preparing_allows w₂ w₃ hinv₂ hstep).1
    · exact Safe.lift nofun
  · exact Safe.lift nofun

theorem loadOrCreateSigning_safe (random : PrepareRandomness) :
    Safe storeMachine (preparingContract networkId) (PrepareStep networkId)
      (loadOrCreateSigning networkId random)
      (OnOk fun key w => w.secrets.open (memberSecretId networkId "member-signing") =
        .ok key.toBytes.val) w := by
  unfold loadOrCreateSigning
  refine loadOrCreate_safe ?_ ?_
  · intro secret key hkey
    rw [← Except.ok.inj hkey]
  · intro w hinv
    unfold loadSigning
    exact Safe.andThen preparing_allows hinv (loadSecret32_safe _)
      fun secret w _ _ hopen => Safe.pure hopen

theorem loadOrCreateEncryption_safe (random : PrepareRandomness) :
    Safe storeMachine (preparingContract networkId) (PrepareStep networkId)
      (loadOrCreateEncryption networkId random)
      (OnOk fun key w => w.secrets.open (memberSecretId networkId "member-encryption") =
        .ok key.secretBytes.val) w := by
  unfold loadOrCreateEncryption
  have hread : ∀ (secret : Bytes32) key,
      (MemberEncryptionKeypair.fromSecretBytes secret).mapError MembershipError.config = .ok key →
        key.secretBytes = secret :=
    fun secret key hkey =>
      MemberEncryptionKeypair.fromSecretBytes_eq_ok.mp (mapError_eq_ok.mp hkey)
  refine loadOrCreate_safe hread ?_
  intro w hinv
  unfold loadEncryption
  refine Safe.andThen preparing_allows hinv (loadSecret32_safe _) ?_
  intro secret w _ _ hopen
  refine Safe.lift fun key hkey => ?_
  rw [hread secret key hkey]
  exact hopen

theorem loadOrCreateEndpoint_safe (random : PrepareRandomness) :
    Safe storeMachine (preparingContract networkId) (PrepareStep networkId)
      (loadOrCreateEndpoint networkId random)
      (OnOk fun key w => w.secrets.open (memberSecretId networkId "endpoint") = .ok key.val) w := by
  unfold loadOrCreateEndpoint
  refine loadOrCreate_safe ?_ fun w _ => loadSecret32_safe _
  intro secret key hkey
  exact (Except.ok.inj hkey).symm

theorem Preparing.read (hinv : Preparing networkId w) {record : VersionedBytes}
    (hrecord : w.record (.member networkId) keyPreparedJoin = some record)
    {p : PreparedJoinRequest} (hp : PreparedJoinRequest.fromBytes record.bytes = .ok p) :
    p.StoredIn networkId w := by
  obtain ⟨p', hbytes, hkeys⟩ := hinv record hrecord
  rw [hbytes, PreparedJoinRequest.fromBytes_toBytes] at hp
  obtain rfl := Except.ok.inj hp
  have hvalue : record = ⟨record.version, p'.toBytes⟩ := by
    rw [← hbytes]
  exact ⟨⟨record.version, hrecord.trans (congrArg some hvalue)⟩, hkeys⟩

theorem readPrepared_safe (hhead : ∀ w', PreparingLe networkId w w' →
      w'.record (.member networkId) configHeadKey = none) :
    Safe storeMachine (preparingContract networkId) (PrepareStep networkId)
      (do
        let record ← readExistingOr .store .notPrepared (.member networkId) keyPreparedJoin
        Task.lift ((PreparedJoinRequest.fromBytes record.bytes).mapError .crypto) :
        StoreTask MembershipError PreparedJoinRequest)
      (OnOk fun p w => p.StoredIn networkId w ∧
        w.record (.member networkId) configHeadKey = none) w := by
  refine Safe.read_andThen PrepareStep.refl (by simp) ?_
  intro w₁ hle₁ hinv₁ record hrecord
  rw [mapError_ok, ok_bind, okOr_eq_ok] at hrecord
  refine Safe.lift fun p hp => ?_
  exact ⟨hinv₁.read hrecord (mapError_eq_ok.mp hp), hhead w₁ hle₁⟩

theorem PrepareStep.commit {w w' : Stores} {batch : AtomicBatch} {version : UInt64}
    {p : PreparedJoinRequest}
    (hbatch : (AtomicBatch.new (.member networkId)).put keyPreparedJoin p.toBytes .missing =
      .ok batch)
    (hcommit : w.state.commitBatch batch = .ok (version, w'.state))
    (hsecrets : w'.secrets = w.secrets) (hkeys : p.KeysIn networkId w.secrets)
    (hhead : w.record (.member networkId) configHeadKey = none) :
    PrepareStep networkId w w' ∧ p.StoredIn networkId w' := by
  obtain ⟨hnone, hput, hother⟩ := Stores.create_spec hbatch hcommit
  have hstored : p.StoredIn networkId w' := by
    refine ⟨hput, ?_⟩
    rw [hsecrets]
    exact hkeys
  refine ⟨⟨?_, .inr ⟨hnone, hhead, p, hstored⟩, hother⟩, hstored⟩
  intro id secret hopen
  rw [hsecrets]
  exact hopen

theorem prepareJoin_safe (stores : MembershipStores) (roles : MemberRoles) (expiresAtMs : UInt64)
    (random : PrepareRandomness) :
    Safe storeMachine (preparingContract networkId) (PrepareStep networkId)
      (prepareJoin stores networkId roles expiresAtMs random)
      (OnOk fun p w => p.StoredIn networkId w ∧
        w.record (.member networkId) configHeadKey = none) w := by
  unfold prepareJoin
  refine Safe.lift_andThen fun _ _ => ?_
  refine Safe.read_andThen PrepareStep.refl (by simp) ?_
  intro w₁ _ _ joined hjoined
  obtain rfl := Except.ok.inj hjoined
  refine Safe.lift_andThen fun _ hhead => ?_
  rw [failIf_eq_ok, Decidable.not_not] at hhead
  have hstill : ∀ {w}, PreparingLe networkId w₁ w →
      w.record (.member networkId) configHeadKey = none := by
    intro w hle
    rw [hle.other configHeadKey (by decide)]
    exact hhead
  refine Safe.read_andThen PrepareStep.refl (by simp) ?_
  intro w₂ hle₂ hinv₂ found hfound
  obtain rfl := Except.ok.inj hfound
  split
  · next record hrecord =>
    refine Safe.lift fun p hp => ?_
    exact ⟨hinv₂.read hrecord (mapError_eq_ok.mp hp), hstill hle₂⟩
  -- the three keys are sealed one after the other, and stay so
  refine Safe.andThen preparing_allows hinv₂ (loadOrCreateSigning_safe random) ?_
  intro signing w₃ hle₃ hinv₃ hsigning
  refine Safe.andThen preparing_allows hinv₃ (loadOrCreateEncryption_safe random) ?_
  intro encryption w₄ hle₄ hinv₄ hencryption
  refine Safe.andThen preparing_allows hinv₄ (loadOrCreateEndpoint_safe random) ?_
  intro endpoint w₅ hle₅ hinv₅ hendpoint
  refine Safe.lift_andThen fun nonce _ => Safe.lift_andThen fun prepared hprepared => ?_
  refine Safe.lift_andThen fun batch hbatch => ?_
  rw [mapError_eq_ok] at hprepared hbatch
  obtain ⟨hpayload, -, -⟩ := PreparedJoinRequest.create_spec hprepared
  have hkeys : prepared.KeysIn networkId w₅.secrets := by
    unfold PreparedJoinRequest.KeysIn
    rw [hpayload]
    exact ⟨⟨signing, hle₅.secrets _ _ (hle₄.secrets _ _ hsigning), rfl⟩,
      ⟨encryption, hle₅.secrets _ _ hencryption, rfl⟩, ⟨endpoint, hendpoint, rfl⟩⟩
  have hle : ∀ {w}, PreparingLe networkId w₅ w → PreparingLe networkId w₁ w := fun hle =>
    let C := preparingContract networkId
    C.trans hle₂ (C.trans hle₃ (C.trans hle₄ (C.trans hle₅ hle)))
  refine Safe.tryCommit_andThen PrepareStep.refl ?_ ?_
  · intro w₆ hle₆ hinv₆ version w₇ hcommit hsecrets
    obtain ⟨hstep, hstored⟩ := PrepareStep.commit hbatch hcommit hsecrets
      (hkeys.mono hle₆.secrets) (hstill (hle hle₆))
    have hle₇ := (preparing_allows w₆ w₇ hinv₆ hstep).2
    have hlater : ∀ w', PreparingLe networkId w₇ w' →
        w'.record (.member networkId) configHeadKey = none := fun w' hle' =>
      hstill (hle ((preparingContract networkId).trans hle₆
        ((preparingContract networkId).trans hle₇ hle')))
    refine ⟨hstep, ?_⟩
    intro answer
    split
    · exact Safe.pure ⟨hstored, hlater w₇ ((preparingContract networkId).refl w₇)⟩
    · exact readPrepared_safe hlater
    · exact Safe.lift nofun
  · intro w₆ hle₆ hinv₆ e
    split
    · next heq => cases heq
    · refine readPrepared_safe ?_
      intro w' hle'
      exact hstill (hle ((preparingContract networkId).trans hle₆ hle'))
    · exact Safe.lift nofun

end Safe

/-! ## All processes -/

/-- A call of `prepare_join`: its arguments and the randomness that it draws, and with them the
requests that had been returned by other calls when it was made. -/
structure PrepareCall where
  stores : MembershipStores
  roles : MemberRoles
  expiresAtMs : UInt64
  random : PrepareRandomness
  returned : List PreparedJoinRequest

def preparingApi (networkId : NetworkId) : Api storeInterface Stores where
  Handle := Unit
  Call := PrepareCall
  Reply _ := Except MembershipError PreparedJoinRequest
  body c _ := Prog.bind (prepareJoin c.stores networkId c.roles c.expiresAtMs c.random)
    fun reply => .ret (reply, ())
  machine _ := storeMachine

/-- Processes appear at any time, and call `prepare_join` with any arguments. -/
def preparers (networkId : NetworkId) : Rules (preparingApi networkId) where
  Spawn _ _ := True
  Start P _ c := ∀ p ∈ c.returned, ∃ e ∈ P.log, e.reply = .ok p

/-- The reply of a call that is made after the request has been returned: the same request, unless
the backend fails or the caller does not accept the stores. -/
def PrepareCall.Repeats (c : PrepareCall) (reply : Except MembershipError PreparedJoinRequest)
    (p : PreparedJoinRequest) : Prop :=
  reply = .ok p ∨ (∃ message, reply = .error (.store (.backend message))) ∨
    validateStores c.stores ≠ .ok () ∧ reply = .error .insecureStoreCapabilities

section Pool

variable {networkId : NetworkId}

theorem prepareJoin_repeats (c : PrepareCall) {p : PreparedJoinRequest} {w : Stores}
    (hstored : p.StoredIn networkId w)
    (hhead : w.record (.member networkId) configHeadKey = none) :
    Safe storeMachine (preparingContract networkId) (PrepareStep networkId)
      (prepareJoin c.stores networkId c.roles c.expiresAtMs c.random)
      (fun reply _ => c.Repeats reply p) w := by
  unfold prepareJoin
  cases hvalid : validateStores c.stores with
  | error e =>
    have he : e = .insecureStoreCapabilities := by
      unfold validateStores failIf at hvalid
      split at hvalid
      · exact (Except.error.inj hvalid).symm
      · cases hvalid
    rw [he] at hvalid ⊢
    exact .inr (.inr ⟨by rw [hvalid]; exact nofun, rfl⟩)
  | ok _ =>
    intro w₁ hle₁ hinv₁ answer w₂ hread₁
    obtain ⟨hstored₁, hhead₁⟩ := storedIn_stable p w w₁ hle₁ hinv₁ ⟨hstored, hhead⟩
    obtain ⟨rfl, -⟩ := storeMachine_read hread₁
    refine ⟨.refl _, ?_⟩
    rcases hread₁ with hserve | ⟨message, rfl, -⟩
    swap
    · exact .inr (.inl ⟨message, rfl⟩)
    obtain rfl : answer = .ok (w₂.record (.member networkId) configHeadKey) :=
      (Prod.mk.inj hserve).1
    rw [hhead₁]
    intro w₃ hle₃ hinv₃ answer w₄ hread₃
    obtain ⟨⟨⟨version, hrecord⟩, -⟩, -⟩ :=
      storedIn_stable p w₂ w₃ hle₃ hinv₃ ⟨hstored₁, hhead₁⟩
    obtain ⟨rfl, -⟩ := storeMachine_read hread₃
    refine ⟨.refl _, ?_⟩
    rcases hread₃ with hserve | ⟨message, rfl, -⟩
    swap
    · exact .inr (.inl ⟨message, rfl⟩)
    obtain rfl : answer = .ok (w₄.record (.member networkId) keyPreparedJoin) :=
      (Prod.mk.inj hserve).1
    rw [hrecord]
    refine .inl ?_
    change (PreparedJoinRequest.fromBytes p.toBytes).mapError MembershipError.crypto = .ok p
    rw [PreparedJoinRequest.fromBytes_toBytes, mapError_ok]

def preparersVerified : Verified (preparers networkId) where
  contract := preparingContract networkId
  Guarantee _ := PrepareStep networkId
  Holds _ _ := True
  Records e w :=
    (∀ p, e.reply = .ok p → p.StoredIn networkId w ∧
      w.record (.member networkId) configHeadKey = none) ∧
    ∀ p ∈ e.call.returned, e.call.Repeats e.reply p
  allows _ := preparing_allows
  holds_stable _ _ _ _ _ _ := trivial
  records_stable _ w w' hle hinv h :=
    ⟨fun p hp => storedIn_stable p w w' hle hinv (h.1 p hp), h.2⟩
  spawn _ _ _ _ := trivial
  start P _ c hinv hlog _ hstart := by
    refine Safe.bind preparing_allows hinv (Q := fun reply w =>
      (∀ p, reply = .ok p → p.StoredIn networkId w ∧
        w.record (.member networkId) configHeadKey = none) ∧
      ∀ p ∈ c.returned, c.Repeats reply p) ?_ ?_
    · refine (prepareJoin_safe c.stores c.roles c.expiresAtMs c.random).and_forall ?_
      -- what had been returned was stored then, and still is
      intro p hp
      obtain ⟨e, he, hreply⟩ := hstart p hp
      obtain ⟨hstored, hhead⟩ := (hlog e he).1 p hreply
      exact prepareJoin_repeats c hstored hhead
    · intro reply w' _ _ hreply
      exact ⟨trivial, hreply⟩

end Pool

/-- Whatever the processes do that prepare to join a network, all calls that return a request return
the one that is stored, byte for byte, and its keys are those of the sealed secrets. A call that is
made after a request has been returned returns the same request, unless the backend fails or the
caller does not accept the stores. -/
theorem prepareJoin_converges {networkId : NetworkId} {w : Stores} (hw : Preparing networkId w)
    {P : Pool (preparingApi networkId)} (h : Reachable (preparers networkId) w P) :
    (∀ e ∈ P.log, ∀ p, e.reply = .ok p →
      (∃ version, P.world.record (.member networkId) keyPreparedJoin =
        some ⟨version, p.toBytes⟩) ∧
      MemberKeys networkId P.world.secrets p.request.payload.signingPublicKey
        p.request.payload.encryptionPublicKey p.request.payload.endpointId) ∧
    (∀ e ∈ P.log, ∀ e' ∈ P.log, ∀ p p', e.reply = .ok p → e'.reply = .ok p' →
      p.toBytes = p'.toBytes) ∧
    ∀ e ∈ P.log, ∀ p ∈ e.call.returned, e.reply = .ok p ∨
      (∃ message, e.reply = .error (.store (.backend message))) ∨
      validateStores e.call.stores ≠ .ok () ∧ e.reply = .error .insecureStoreCapabilities := by
  have hgood : preparersVerified.Good P := Verified.good hw h
  have hstored : ∀ e ∈ P.log, ∀ p, e.reply = .ok p → p.StoredIn networkId P.world :=
    fun e he p hp => ((hgood.log e he).1 p hp).1
  refine ⟨hstored, ?_, fun e he => (hgood.log e he).2⟩
  intro e he e' he' p p' hp hp'
  obtain ⟨⟨version, hrecord⟩, -⟩ := hstored e he p hp
  obtain ⟨⟨version', hrecord'⟩, -⟩ := hstored e' he' p' hp'
  have heq := Option.some.inj (hrecord.symm.trans hrecord')
  exact congrArg Entry.value heq

/-! ## What a request is prepared for -/

section Usable

variable {stores : MembershipStores} {networkId : NetworkId} {roles : MemberRoles}
  {expiresAtMs nowMs : UInt64} {random : PrepareRandomness} {w w' : Stores}
  {p : PreparedJoinRequest}

omit [Crypto] in
theorem record_of_loading {κ : Type} {x : StoreTask MembershipError κ}
    (hx : Prog.Only (WritesOnly configHeadKey) x) {r : Except MembershipError κ}
    (h : x.run serve w = (r, w')) : w'.record (.member networkId) keyPreparedJoin =
      w.record (.member networkId) keyPreparedJoin := by
  have hsame := record_of_writesOnly hx (show keyPreparedJoin ≠ configHeadKey by decide)
    (.member networkId) w
  rw [show Prog.run serve x w = _ from h] at hsame
  exact hsame

/-- What is returned is the stored request, or one that was created for the arguments. -/
theorem prepareJoin_cases
    (h : (prepareJoin stores networkId roles expiresAtMs random).run serve w = (.ok p, w')) :
    (∃ record, w.record (.member networkId) keyPreparedJoin = some record ∧
      PreparedJoinRequest.fromBytes record.bytes = .ok p) ∨
    ∃ signing encryption endpoint nonce, PreparedJoinRequest.create networkId signing encryption
      endpoint nonce roles expiresAtMs = .ok p := by
  have hquiet : ∀ label, Prog.Only (WritesOnly configHeadKey) (loadSecret32 networkId label) :=
    fun _ => ⟨nofun, fun _ => trivial⟩
  have hsigning : Prog.Only (WritesOnly configHeadKey) (loadSigning networkId) :=
    (hquiet _).andThen fun _ => trivial
  have hencryption : Prog.Only (WritesOnly configHeadKey) (loadEncryption networkId) :=
    (hquiet _).andThen fun _ => trivial
  unfold prepareJoin at h
  obtain ⟨_, -, h⟩ := Task.run_lift_bind_eq_ok.mp h
  rw [readOr_bind_run] at h
  obtain ⟨_, -, h⟩ := Task.run_lift_bind_eq_ok.mp h
  rw [readOr_bind_run] at h
  cases hrecord : w.record (.member networkId) keyPreparedJoin with
  | some record =>
    rw [hrecord] at h
    exact .inl ⟨record, rfl, mapError_eq_ok.mp (Prod.mk.inj h).1⟩
  | none =>
    rw [hrecord] at h
    obtain ⟨signing, w₁, h₁, h⟩ := Task.run_bind_eq_ok.mp h
    obtain ⟨encryption, w₂, h₂, h⟩ := Task.run_bind_eq_ok.mp h
    obtain ⟨endpoint, w₃, h₃, h⟩ := Task.run_bind_eq_ok.mp h
    have hnone : w₃.record (.member networkId) keyPreparedJoin = none := by
      rw [record_of_loading (loadOrCreate_only (hquiet _)) h₃,
        record_of_loading (loadOrCreate_only hencryption) h₂,
        record_of_loading (loadOrCreate_only hsigning) h₁, hrecord]
    obtain ⟨nonce, -, h⟩ := Task.run_lift_bind_eq_ok.mp h
    obtain ⟨prepared, hprepared, h⟩ := Task.run_lift_bind_eq_ok.mp h
    obtain ⟨batch, -, h⟩ := Task.run_lift_bind_eq_ok.mp h
    rw [tryCommit_bind_run] at h
    cases hcommit : w₃.state.commitBatch batch with
    | ok result =>
      rw [Stores.commit_of_ok hcommit] at h
      obtain rfl := Except.ok.inj (Prod.mk.inj h).1
      exact .inr ⟨_, _, _, _, mapError_eq_ok.mp hprepared⟩
    | error e =>
      rw [Stores.commit_of_error hcommit] at h
      split at h
      · next heq => cases heq
      · -- a conflict would mean that a request is stored
        obtain ⟨record, hfound, -⟩ := readExistingOr_bind_eq_ok.mp h
        cases hnone.symm.trans hfound
      · cases (Prod.mk.inj h).1

end Usable

end Weaver

namespace Weaver.Sample

open Checked Program Transparent

def joinedNetwork : NetworkId := ⟨fill 9⟩

def preparation (returned : List PreparedJoinRequest) : PrepareCall :=
  ⟨⟨true, false, true, true⟩, .member, 5000,
    ⟨some (fill 1), ⟨fill 2, fill 2, rfl, rfl⟩, fill 3, some (fill 4)⟩, returned⟩

def prepared : Pool (preparingApi joinedNetwork) :=
  (Pool.alone _ Stores.empty () []).perform serve 0 () (preparation [])

theorem prepared_isOk : prepared.log.map (fun e => e.reply.isOk) = [true] := by decide +kernel

/-- The call returns the request that is stored. -/
theorem prepareJoin_converges_sample : ∃ p, ∃ e ∈ prepared.log, e.reply = .ok p ∧
    ∃ version, prepared.world.record (.member joinedNetwork) keyPreparedJoin =
      some ⟨version, p.toBytes⟩ := by
  have hreachable : Reachable (preparers joinedNetwork) Stores.empty prepared :=
    .trans (Reachable.alone trivial)
      (Steps.perform (fun w r => storeMachine_serve w r) rfl fun _ hp => nomatch hp)
  have hconverges := (prepareJoin_converges (w := Stores.empty) (fun record hrecord => nomatch hrecord)
    hreachable).1
  obtain ⟨e, hlog⟩ : ∃ e, prepared.log = [e] := ⟨_, rfl⟩
  have hok := prepared_isOk
  rw [hlog] at hok
  have hmem : e ∈ prepared.log := by
    rw [hlog]
    exact List.mem_singleton_self e
  cases hreply : e.reply with
  | error _ =>
    simp only [List.map_cons, List.map_nil, hreply] at hok
    cases hok
  | ok p => exact ⟨p, e, hmem, hreply, (hconverges e hmem p hreply).1⟩

/-- The preparation of the sample member, at stores, for roles and until a time. -/
def preparingFor (roles : MemberRoles) (expiresAtMs : UInt64) (w : Stores) :
    Except MembershipError PreparedJoinRequest × Stores :=
  (prepareJoin ⟨true, false, true, true⟩ joinedNetwork roles expiresAtMs
    ⟨some (fill 1), ⟨fill 2, fill 2, rfl, rfl⟩, fill 3, some (fill 4)⟩).run serve w

theorem preparingFor_isOk : (preparingFor .member 5000 Stores.empty).1.isOk = true := by
  decide +kernel

end Weaver.Sample
