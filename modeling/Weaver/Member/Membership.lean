import Weaver.Member.Applying

/-!
# Joining a network

`NetworkMembership` of `weaver-net`: `prepare_join` creates a member's secrets and its request and
keeps them until a ticket comes back, and `join` checks the ticket against them and writes the
member's first configuration checkpoint. `join_eq_ok` says exactly when a ticket is accepted
(`Joins`).
-/

namespace Weaver

open Checked Wire Versioned Program

/-! ## Keys and errors -/

def keyPreparedJoin : StoreKey := ⟨utf8 "join/prepared/v1", by decide⟩

def keyMemberCertificate : StoreKey := ⟨utf8 "membership/certificate/v1", by decide⟩

def keyEndpointBinding : StoreKey := ⟨utf8 "membership/endpoint-binding/v1", by decide⟩

/-- `MembershipError`, without the errors of the bootstrap transport. -/
inductive MembershipError where
  | insecureStoreCapabilities
  | alreadyJoined
  | notPrepared
  | randomnessUnavailable
  | corruptSecret
  | secretMismatch (secret : String)
  | ticketMemberMismatch
  | store (error : StoreError)
  | secret (error : SecretStoreError)
  | crypto (error : CertificateError)
  | config (error : ConfigError)
  | authority (error : AuthorityError)
deriving DecidableEq

/-- What `MembershipStores` says about its stores. -/
structure MembershipStores where
  atomicBatches : Bool
  durableCommits : Bool
  inMemoryTestOnly : Bool
  allowInsecureTestStores : Bool

def validateStores (stores : MembershipStores) : Except MembershipError Unit :=
  failIf (stores.atomicBatches = false ∨
    (stores.durableCommits = false ∧ stores.allowInsecureTestStores = false) ∨
    (stores.inMemoryTestOnly = true ∧ stores.allowInsecureTestStores = false))
    .insecureStoreCapabilities

variable [Crypto]

/-! ## The member's secrets -/

def memberSecretId (networkId : NetworkId) (label : String) : SecretId :=
  deriveKey "weaver.member.secret-id.v1" (networkId.asBytes.val ++ utf8 label)

omit [Crypto] in
def secret32 (bytes : Bytes) : Except MembershipError Bytes32 :=
  if h : bytes.length = 32 then .ok ⟨bytes, h⟩ else .error .corruptSecret

def loadSecret32 (networkId : NetworkId) (label : String) : StoreTask MembershipError Bytes32 :=
  Task.request (.openSecret (memberSecretId networkId label)) fun answer => do
    secret32 (← answer.mapError .secret)

def loadSigning (networkId : NetworkId) : StoreTask MembershipError SigningKeypair := do
  let secret ← loadSecret32 networkId "member-signing"
  return ⟨secret⟩

def loadEncryption (networkId : NetworkId) :
    StoreTask MembershipError MemberEncryptionKeypair := do
  let secret ← loadSecret32 networkId "member-encryption"
  Task.lift ((MemberEncryptionKeypair.fromSecretBytes secret).mapError .config)

def loadEndpoint (networkId : NetworkId) : StoreTask MembershipError Bytes32 :=
  loadSecret32 networkId "endpoint"

/-- The three `load_or_create` functions: a secret that is missing is generated and sealed, and
where another process has sealed one in between, that one is loaded. -/
def loadOrCreate {κ : Type} (networkId : NetworkId) (label : String)
    (parse : Bytes32 → Except MembershipError κ) (generated : Except MembershipError κ)
    (toBytes : κ → Bytes32) (load : StoreTask MembershipError κ) : StoreTask MembershipError κ := do
  match ← tryOpenSecret (memberSecretId networkId label) with
  | .ok bytes => Task.lift (secret32 bytes >>= parse)
  | .error .notFound => do
    let key ← Task.lift generated
    match ← trySealSecret (memberSecretId networkId label) (toBytes key).val with
    | .ok () => return key
    | .error .alreadyExistsDifferent => load
    | .error e => Task.lift (.error (.secret e))
  | .error e => Task.lift (.error (.secret e))

/-- The draws of `prepare_join`. -/
structure PrepareRandomness where
  signing : Option Bytes32
  encryption : MemberEncryptionKeypair
  endpoint : Bytes32
  nonce : Option Bytes32

def loadOrCreateSigning (networkId : NetworkId) (random : PrepareRandomness) :
    StoreTask MembershipError SigningKeypair :=
  loadOrCreate networkId "member-signing" (fun secret => .ok ⟨secret⟩)
    ((SigningKeypair.generate random.signing).mapError .crypto) SigningKeypair.toBytes
    (loadSigning networkId)

def loadOrCreateEncryption (networkId : NetworkId) (random : PrepareRandomness) :
    StoreTask MembershipError MemberEncryptionKeypair :=
  loadOrCreate networkId "member-encryption"
    (fun secret => (MemberEncryptionKeypair.fromSecretBytes secret).mapError .config)
    (.ok random.encryption) MemberEncryptionKeypair.secretBytes (loadEncryption networkId)

def loadOrCreateEndpoint (networkId : NetworkId) (random : PrepareRandomness) :
    StoreTask MembershipError Bytes32 :=
  loadOrCreate networkId "endpoint" Except.ok (.ok random.endpoint) id (loadEndpoint networkId)

/-! ## Preparing and joining -/

/-- `NetworkMembership::prepare_join`. -/
def prepareJoin (stores : MembershipStores) (networkId : NetworkId) (roles : MemberRoles)
    (expiresAtMs : UInt64) (random : PrepareRandomness) :
    StoreTask MembershipError PreparedJoinRequest := do
  Task.lift (validateStores stores)
  let scope := StoreScope.member networkId
  let joined ← readOr .store scope configHeadKey
  Task.lift (failIf (joined ≠ none) .alreadyJoined)
  match ← readOr .store scope keyPreparedJoin with
  | some record => Task.lift ((PreparedJoinRequest.fromBytes record.bytes).mapError .crypto)
  | none => do
    let signing ← loadOrCreateSigning networkId random
    let encryption ← loadOrCreateEncryption networkId random
    let endpoint ← loadOrCreateEndpoint networkId random
    let nonce ← Task.lift (okOr random.nonce .randomnessUnavailable)
    let prepared ← Task.lift ((PreparedJoinRequest.create networkId signing encryption.publicBytes
      (Crypto.endpointPublic endpoint) nonce roles expiresAtMs).mapError .crypto)
    let batch ← Task.lift
      (((AtomicBatch.new scope).put keyPreparedJoin prepared.toBytes .missing).mapError .store)
    match ← tryCommit batch with
    | .ok _ => return prepared
    | .error (.versionConflict _ _ _) => do
      let record ← readExistingOr .store .notPrepared scope keyPreparedJoin
      Task.lift ((PreparedJoinRequest.fromBytes record.bytes).mapError .crypto)
    | .error e => Task.lift (.error (.store e))

omit [Crypto] in
/-- The batch that `join` commits: the member's first checkpoint and its credentials, in place of
the prepared request. -/
def joinBatch (scope : StoreScope) (ticket : JoinTicket) (head : ConfigHead)
    (preparedVersion : UInt64) : Except StoreError AtomicBatch := do
  let batch ← (AtomicBatch.new scope).put configEnvelopeKey ticket.embeddedConfig .missing
  let batch ← batch.put configHeadKey (encodeHead head) .missing
  let batch ← batch.put configSignerCertificateKey ticket.adminCertificate .missing
  let batch ← batch.put keyMemberCertificate ticket.memberCertificate .missing
  let batch ← batch.put keyEndpointBinding ticket.endpointBinding .missing
  batch.delete keyPreparedJoin (.exact preparedVersion)

/-- `NetworkMembership::join`. -/
def join (stores : MembershipStores) (root : NetworkRootPublic) (ticket : JoinTicket)
    (nowMs : UInt64) : StoreTask MembershipError ConfigHead := do
  Task.lift (validateStores stores)
  let networkId := root.networkId
  let scope := StoreScope.member networkId
  let preparedRecord ← readExistingOr .store .notPrepared scope keyPreparedJoin
  let prepared ← Task.lift
    ((PreparedJoinRequest.fromBytes preparedRecord.bytes).mapError .crypto)
  let request ← Task.lift ((prepared.verify networkId nowMs).mapError .crypto)
  Task.lift ((ticket.verify root networkId request.payload.nonce request.payload.endpointId
    nowMs).mapError .authority)
  let encryption ← loadEncryption networkId
  Task.lift (failIf (encryption.publicBytes ≠ request.payload.encryptionPublicKey)
    (.secretMismatch "member encryption"))
  let endpoint ← loadEndpoint networkId
  Task.lift (failIf (Crypto.endpointPublic endpoint ≠ request.payload.endpointId)
    (.secretMismatch "endpoint"))
  let signing ← loadSigning networkId
  Task.lift (failIf (signing.publicBytes ≠ request.payload.signingPublicKey)
    (.secretMismatch "member signing"))
  let adminCertificate ← Task.lift
    ((AdminCertificate.fromBytes ticket.adminCertificate).mapError .crypto)
  let admin ← Task.lift ((adminCertificate.verify root networkId nowMs []).mapError .crypto)
  let envelope ← Task.lift
    ((EncryptedConfigEnvelope.fromBytes ticket.embeddedConfig).mapError .config)
  let opened ← Task.lift ((envelope.openConfigWithVerifiedAdmin root admin encryption
    (.checkpoint ticket.configHead) nowMs).mapError .config)
  let member ← Task.lift ((MemberCertificate.fromBytes ticket.memberCertificate).mapError .crypto)
  Task.lift (failIf (member.payload.memberId ≠ request.payload.memberId ∨
    member.payload.signingPublicKey ≠ request.payload.signingPublicKey ∨
    member.payload.encryptionPublicKey ≠ request.payload.encryptionPublicKey)
    .ticketMemberMismatch)
  let batch ← Task.lift
    ((joinBatch scope ticket opened.head preparedRecord.version).mapError .store)
  let _ ← commitOr .store batch
  return opened.head

/-! ## What joining amounts to -/

section Run

variable {α : Type} {w w' : Stores} {r : α}

variable {networkId : NetworkId}

theorem loadSecret32_bind_eq_ok {label : String} {f : Bytes32 → StoreTask MembershipError α} :
    (loadSecret32 networkId label >>= f).run serve w = (.ok r, w') ↔
      ∃ secret : Bytes32, w.secrets.open (memberSecretId networkId label) = .ok secret.val ∧
        (f secret).run serve w = (.ok r, w') := by
  have hrun : (loadSecret32 networkId label).run serve w =
      ((do secret32 (← (w.secrets.open (memberSecretId networkId label)).mapError .secret)), w) :=
    rfl
  rw [Task.run_bind_eq_ok, hrun]
  constructor
  · rintro ⟨secret, w₁, hload, h⟩
    obtain ⟨hsecret, rfl⟩ := Prod.mk.inj hload
    obtain ⟨bytes, hbytes, hsized⟩ := bind_eq_ok.mp hsecret
    unfold secret32 at hsized
    split at hsized
    · obtain rfl := Except.ok.inj hsized
      exact ⟨_, mapError_eq_ok.mp hbytes, h⟩
    · cases hsized
  · rintro ⟨secret, hopen, h⟩
    refine ⟨secret, w, ?_, h⟩
    rw [hopen, mapError_ok, ok_bind, secret32, dif_pos secret.property]

theorem loadEncryption_bind_eq_ok {f : MemberEncryptionKeypair → StoreTask MembershipError α} :
    (loadEncryption networkId >>= f).run serve w = (.ok r, w') ↔
      ∃ key : MemberEncryptionKeypair,
        w.secrets.open (memberSecretId networkId "member-encryption") = .ok key.secretBytes.val ∧
        (f key).run serve w = (.ok r, w') := by
  rw [Task.run_bind_eq_ok]
  unfold loadEncryption
  constructor
  · rintro ⟨key, w₁, hload, h⟩
    obtain ⟨secret, hopen, hkey⟩ := loadSecret32_bind_eq_ok.mp hload
    obtain ⟨hread, rfl⟩ := Prod.mk.inj hkey
    rw [mapError_eq_ok, MemberEncryptionKeypair.fromSecretBytes_eq_ok] at hread
    refine ⟨key, ?_, h⟩
    rw [hread]
    exact hopen
  · rintro ⟨key, hopen, h⟩
    refine ⟨key, w, loadSecret32_bind_eq_ok.mpr ⟨key.secretBytes, hopen, ?_⟩, h⟩
    rw [Task.run_lift, MemberEncryptionKeypair.fromSecretBytes_eq_ok.mpr rfl, mapError_ok]

theorem loadSigning_bind_eq_ok {f : SigningKeypair → StoreTask MembershipError α} :
    (loadSigning networkId >>= f).run serve w = (.ok r, w') ↔
      ∃ key : SigningKeypair,
        w.secrets.open (memberSecretId networkId "member-signing") = .ok key.toBytes.val ∧
        (f key).run serve w = (.ok r, w') := by
  rw [Task.run_bind_eq_ok]
  unfold loadSigning
  constructor
  · rintro ⟨key, w₁, hload, h⟩
    obtain ⟨secret, hopen, hkey⟩ := loadSecret32_bind_eq_ok.mp hload
    obtain ⟨hread, rfl⟩ := Prod.mk.inj hkey
    obtain rfl := Except.ok.inj hread
    exact ⟨⟨secret⟩, hopen, h⟩
  · rintro ⟨key, hopen, h⟩
    exact ⟨key, w, loadSecret32_bind_eq_ok.mpr ⟨key.toBytes, hopen, rfl⟩, h⟩

end Run

/-! ## Loading keys -/

theorem loadSecret32_run_snd (networkId : NetworkId) (label : String) (w : Stores) :
    ((loadSecret32 networkId label).run serve w).2 = w := rfl

theorem loadEncryption_run_snd (networkId : NetworkId) (w : Stores) :
    ((loadEncryption networkId).run serve w).2 = w := by
  unfold loadEncryption
  rcases h : Task.run serve _ w with ⟨r, w'⟩
  rcases Task.run_quiet_cases (loadSecret32_run_snd _ _ w) h with ⟨_, -, hw⟩ | ⟨_, hlift⟩
  · exact hw
  · exact (Prod.mk.inj hlift).2.symm

theorem loadSigning_run_snd (networkId : NetworkId) (w : Stores) :
    ((loadSigning networkId).run serve w).2 = w := by
  unfold loadSigning
  rcases h : Task.run serve _ w with ⟨r, w'⟩
  rcases Task.run_quiet_cases (loadSecret32_run_snd _ _ w) h with ⟨_, -, hw⟩ | ⟨_, hlift⟩
  · exact hw
  · exact (Prod.mk.inj hlift).2.symm

/-! ## Preparing -/

theorem loadOrCreate_only {κ : Type} {networkId : NetworkId} {label : String}
    {parse : Bytes32 → Except MembershipError κ} {generated : Except MembershipError κ}
    {toBytes : κ → Bytes32} {load : StoreTask MembershipError κ} {key : StoreKey}
    (hload : Prog.Only (WritesOnly key) load) :
    Prog.Only (WritesOnly key) (loadOrCreate networkId label parse generated toBytes load) := by
  unfold loadOrCreate
  refine Prog.Only.andThen ⟨nofun, fun _ => trivial⟩ fun opened => ?_
  split
  · trivial
  · refine Prog.Only.lift_andThen fun key _ => ?_
    refine Prog.Only.andThen ⟨nofun, fun _ => trivial⟩ fun stored => ?_
    split
    · trivial
    · exact hload
    · trivial
  · trivial

theorem prepareJoin_only (stores : MembershipStores) (networkId : NetworkId) (roles : MemberRoles)
    (expiresAtMs : UInt64) (random : PrepareRandomness) :
    Prog.Only (WritesOnly keyPreparedJoin)
      (prepareJoin stores networkId roles expiresAtMs random) := by
  have hquiet : ∀ label, Prog.Only (WritesOnly keyPreparedJoin) (loadSecret32 networkId label) :=
    fun _ => ⟨nofun, fun _ => trivial⟩
  unfold prepareJoin
  refine Prog.Only.lift_andThen fun _ _ => ?_
  refine Prog.Only.andThen ⟨nofun, fun _ => trivial⟩ fun joined => ?_
  refine Prog.Only.lift_andThen fun _ _ => ?_
  refine Prog.Only.andThen ⟨nofun, fun _ => trivial⟩ fun pending => ?_
  split
  · trivial
  refine Prog.Only.andThen (loadOrCreate_only ((hquiet _).andThen fun _ => trivial)) fun _ => ?_
  refine Prog.Only.andThen (loadOrCreate_only ((hquiet _).andThen fun _ => trivial)) fun _ => ?_
  refine Prog.Only.andThen (loadOrCreate_only (hquiet _)) fun _ => ?_
  refine Prog.Only.lift_andThen fun _ _ => Prog.Only.lift_andThen fun prepared _ => ?_
  refine Prog.Only.lift_andThen fun batch hbatch => ?_
  rw [mapError_eq_ok, AtomicBatch.put_eq_ok] at hbatch
  obtain ⟨-, -, -, hops⟩ := hbatch
  refine Prog.Only.andThen ⟨?_, fun _ => trivial⟩ fun committed => ?_
  · intro b hb op hop
    obtain rfl := StoreRequest.commit.inj hb
    rw [hops] at hop
    obtain rfl := List.mem_singleton.mp hop
    rfl
  · split
    · trivial
    · exact Prog.Only.andThen ⟨nofun, fun _ => trivial⟩ fun _ => trivial
    · trivial

variable {stores : MembershipStores}

theorem prepareJoin_run_joined {networkId : NetworkId} {roles : MemberRoles} {expiresAtMs : UInt64}
    {random : PrepareRandomness} {w w' : Stores} {record : VersionedBytes}
    {r : Except MembershipError PreparedJoinRequest}
    (hhead : w.record (.member networkId) configHeadKey = some record)
    (h : (prepareJoin stores networkId roles expiresAtMs random).run serve w = (r, w')) :
    w' = w := by
  unfold prepareJoin at h
  rcases Task.run_lift_cases h with ⟨e, -, hw⟩ | ⟨_, -, h⟩
  · exact hw
  rw [readOr_bind_run, hhead, failIf_pos (by simp)] at h
  exact (Prod.mk.inj h).2.symm

/-! ## Joining -/

/-- What `join` asks of the stores and of the ticket, with the request, the keys, the credentials,
the envelope and the configuration that it finds. -/
structure Joins (root : NetworkRootPublic) (ticket : JoinTicket) (nowMs : UInt64) (w : Stores)
    (prepared : PreparedJoinRequest) (key : MemberEncryptionKeypair) (a : AdminCertificate)
    (m : MemberCertificate) (b : EndpointBinding) (e : EncryptedConfigEnvelope)
    (c : NetworkConfigV1) : Prop where
  request : prepared.request.Verifies root.networkId nowMs ∧
    prepared.endpointBinding.Joins prepared.request.payload root.networkId
  ticket : ticket.Verifies root root.networkId prepared.request.payload.nonce
    prepared.request.payload.endpointId nowMs a m b e
  encryption :
    w.secrets.open (memberSecretId root.networkId "member-encryption") = .ok key.secretBytes.val ∧
    key.publicBytes = prepared.request.payload.encryptionPublicKey
  endpoint : ∃ secret : Bytes32,
    w.secrets.open (memberSecretId root.networkId "endpoint") = .ok secret.val ∧
    Crypto.endpointPublic secret = prepared.request.payload.endpointId
  signing : ∃ signing : SigningKeypair,
    w.secrets.open (memberSecretId root.networkId "member-signing") = .ok signing.toBytes.val ∧
    signing.publicBytes = prepared.request.payload.signingPublicKey
  signer : e.signerKeyId = a.payload.keyId ∧
    a.payload.permissions &&& adminPermissionConfigWrite ≠ 0 ∧
    Crypto.verify a.payload.publicKey e.signedBytes e.signature = true
  opens : e.OpensTo root key nowMs c
  member : m.payload.memberId = prepared.request.payload.memberId ∧
    m.payload.signingPublicKey = prepared.request.payload.signingPublicKey ∧
    m.payload.encryptionPublicKey = prepared.request.payload.encryptionPublicKey

omit [Crypto] in
/-- The writes of `join`. -/
def joinOperations (ticket : JoinTicket) (head : ConfigHead) (preparedVersion : UInt64) :
    List (Operation StoreKey Bytes) :=
  [.put configEnvelopeKey ticket.embeddedConfig .missing,
    .put configHeadKey (encodeHead head) .missing,
    .put configSignerCertificateKey ticket.adminCertificate .missing,
    .put keyMemberCertificate ticket.memberCertificate .missing,
    .put keyEndpointBinding ticket.endpointBinding .missing,
    .delete keyPreparedJoin (.exact preparedVersion)]

variable {ticket : JoinTicket}

omit [Crypto] in
theorem joinBatch_eq_ok {scope : StoreScope} {head : ConfigHead} {preparedVersion : UInt64}
    {batch : AtomicBatch} :
    joinBatch scope ticket head preparedVersion = .ok batch ↔
      (ticket.embeddedConfig.length ≤ maxValueLen ∧ ticket.adminCertificate.length ≤ maxValueLen ∧
        ticket.memberCertificate.length ≤ maxValueLen ∧
        ticket.endpointBinding.length ≤ maxValueLen) ∧
      batch.scope = scope ∧ batch.operations = joinOperations ticket head preparedVersion := by
  have hspec : ∀ b, joinBatch scope ticket head preparedVersion = .ok b →
      (ticket.embeddedConfig.length ≤ maxValueLen ∧ ticket.adminCertificate.length ≤ maxValueLen ∧
        ticket.memberCertificate.length ≤ maxValueLen ∧
        ticket.endpointBinding.length ≤ maxValueLen) ∧
      b.scope = scope ∧ b.operations = joinOperations ticket head preparedVersion := by
    intro b h
    unfold joinBatch at h
    simp only [bind_eq_ok, AtomicBatch.put_eq_ok, AtomicBatch.delete_eq_ok] at h
    obtain ⟨b₁, ⟨hlen₁, -, hs₁, ho₁⟩, b₂, ⟨-, -, hs₂, ho₂⟩, b₃, ⟨hlen₃, -, hs₃, ho₃⟩, b₄,
      ⟨hlen₄, -, hs₄, ho₄⟩, b₅, ⟨hlen₅, -, hs₅, ho₅⟩, -, hs, ho⟩ := h
    refine ⟨⟨hlen₁, hlen₃, hlen₄, hlen₅⟩, ?_, ?_⟩
    · rw [hs, hs₅, hs₄, hs₃, hs₂, hs₁]
      rfl
    · rw [ho, ho₅, ho₄, ho₃, ho₂, ho₁]
      rfl
  constructor
  · exact hspec batch
  · rintro ⟨⟨hlen₁, hlen₃, hlen₄, hlen₅⟩, hscope, hops⟩
    have hlen₂ : (encodeHead head).length ≤ maxValueLen := by
      rw [encodeHead_length]
      decide
    -- the keys are distinct, so that every write can be added
    obtain ⟨b₁, hput₁, hk₁⟩ := AtomicBatch.exists_put (.new scope) configEnvelopeKey hlen₁
      (show configEnvelopeKey ∉ [] by decide) .missing
    change b₁.operations.map Operation.key = [configEnvelopeKey] at hk₁
    obtain ⟨b₂, hput₂, hk₂⟩ := AtomicBatch.exists_put b₁ configHeadKey hlen₂
      (by rw [hk₁]; decide) .missing
    rw [hk₁] at hk₂
    obtain ⟨b₃, hput₃, hk₃⟩ := AtomicBatch.exists_put b₂ configSignerCertificateKey hlen₃
      (by rw [hk₂]; decide) .missing
    rw [hk₂] at hk₃
    obtain ⟨b₄, hput₄, hk₄⟩ := AtomicBatch.exists_put b₃ keyMemberCertificate hlen₄
      (by rw [hk₃]; decide) .missing
    rw [hk₃] at hk₄
    obtain ⟨b₅, hput₅, hk₅⟩ := AtomicBatch.exists_put b₄ keyEndpointBinding hlen₅
      (by rw [hk₄]; decide) .missing
    rw [hk₄] at hk₅
    obtain ⟨b, hb⟩ : ∃ b, joinBatch scope ticket head preparedVersion = .ok b := by
      unfold joinBatch
      rw [hput₁, ok_bind, hput₂, ok_bind, hput₃, ok_bind, hput₄, ok_bind, hput₅, ok_bind]
      unfold AtomicBatch.delete AtomicBatch.insertUnique
      have hnew : keyPreparedJoin ∉ b₅.operations.map Operation.key := by
        rw [hk₅]
        decide
      exact ⟨_, dif_neg hnew⟩
    obtain ⟨-, hscope', hops'⟩ := hspec b hb
    rw [hb, AtomicBatch.ext_operations (hscope.trans hscope'.symm) (hops.trans hops'.symm)]

theorem join_eq_ok {root : NetworkRootPublic} {nowMs : UInt64} {head : ConfigHead} {w w' : Stores} :
    (join stores root ticket nowMs).run serve w = (.ok head, w') ↔
      validateStores stores = .ok () ∧
      ∃ record prepared key a m b e c,
        w.record (.member root.networkId) keyPreparedJoin = some record ∧
        PreparedJoinRequest.fromBytes record.bytes = .ok prepared ∧
        Joins root ticket nowMs w prepared key a m b e c ∧ head = e.head ∧
        ∃ batch version, joinBatch (.member root.networkId) ticket e.head record.version =
            .ok batch ∧
          w.state.commitBatch batch = .ok (version, w'.state) ∧ w'.secrets = w.secrets := by
  constructor
  · intro h
    unfold join at h
    obtain ⟨_, hstores, h⟩ := Task.run_lift_bind_eq_ok.mp h
    obtain ⟨record, hrecord, h⟩ := readExistingOr_bind_eq_ok.mp h
    obtain ⟨prepared, hprepared, h⟩ := Task.run_lift_bind_eq_ok.mp h
    obtain ⟨request, hrequest, h⟩ := Task.run_lift_bind_eq_ok.mp h
    rw [mapError_eq_ok, PreparedJoinRequest.verify_eq_ok] at hrequest
    obtain ⟨hverifies, hjoins, rfl⟩ := hrequest
    obtain ⟨_, hticket, h⟩ := Task.run_lift_bind_eq_ok.mp h
    rw [mapError_eq_ok, JoinTicket.verify_eq_ok] at hticket
    obtain ⟨a, m, b, e, hticket⟩ := hticket
    obtain ⟨key, hkey, h⟩ := loadEncryption_bind_eq_ok.mp h
    obtain ⟨_, hpublic, h⟩ := Task.run_lift_bind_eq_ok.mp h
    rw [failIf_eq_ok, Decidable.not_not] at hpublic
    obtain ⟨endpoint, hendpoint, h⟩ := loadSecret32_bind_eq_ok.mp h
    obtain ⟨_, hendpointPublic, h⟩ := Task.run_lift_bind_eq_ok.mp h
    rw [failIf_eq_ok, Decidable.not_not] at hendpointPublic
    obtain ⟨signing, hsigning, h⟩ := loadSigning_bind_eq_ok.mp h
    obtain ⟨_, hsigningPublic, h⟩ := Task.run_lift_bind_eq_ok.mp h
    rw [failIf_eq_ok, Decidable.not_not] at hsigningPublic
    obtain ⟨certificate, hcertificate, h⟩ := Task.run_lift_bind_eq_ok.mp h
    rw [mapError_eq_ok, Signed.fromBytes_eq_ok, hticket.admin.1] at hcertificate
    obtain rfl := Signed.toBytes_injective hcertificate
    obtain ⟨admin, hadmin, h⟩ := Task.run_lift_bind_eq_ok.mp h
    rw [mapError_eq_ok, AdminCertificate.verify_eq_ok] at hadmin
    obtain ⟨envelope, henvelope, h⟩ := Task.run_lift_bind_eq_ok.mp h
    obtain rfl := Except.ok.inj (hticket.envelope.symm.trans (mapError_eq_ok.mp henvelope))
    obtain ⟨opened, hopened, h⟩ := Task.run_lift_bind_eq_ok.mp h
    rw [mapError_eq_ok, EncryptedConfigEnvelope.openConfigWithVerifiedAdmin_eq_ok, hadmin.2]
      at hopened
    obtain ⟨-, hsigner, hpermission, hsignature, -, hopens, hhead⟩ := hopened
    obtain ⟨member, hmember, h⟩ := Task.run_lift_bind_eq_ok.mp h
    rw [mapError_eq_ok, Signed.fromBytes_eq_ok, hticket.member.1] at hmember
    obtain rfl := Signed.toBytes_injective hmember
    obtain ⟨_, hids, h⟩ := Task.run_lift_bind_eq_ok.mp h
    simp only [failIf_eq_ok, not_or, Decidable.not_not] at hids
    obtain ⟨batch, hbatch, h⟩ := Task.run_lift_bind_eq_ok.mp h
    rw [mapError_eq_ok, hhead] at hbatch
    obtain ⟨version, w₁, hcommit, hsecrets, h⟩ := commitOr_bind_eq_ok.mp h
    obtain ⟨hok, rfl⟩ := Prod.mk.inj h
    obtain rfl := Except.ok.inj hok
    exact ⟨hstores, record, prepared, key, a, m, b, e, opened.config.asConfig, hrecord,
      mapError_eq_ok.mp hprepared, ⟨⟨hverifies, hjoins⟩, hticket, ⟨hkey, hpublic⟩,
      ⟨endpoint, hendpoint, hendpointPublic⟩, ⟨signing, hsigning, hsigningPublic⟩,
      ⟨hsigner, hpermission, hsignature⟩, hopens, hids⟩, hhead, batch, version, hbatch, hcommit,
      hsecrets⟩
  · rintro ⟨hstores, record, prepared, key, a, m, b, e, c, hrecord, hprepared, hjoins, rfl, batch,
      version, hbatch, hcommit, hsecrets⟩
    obtain ⟨hkey, hpublic⟩ := hjoins.encryption
    obtain ⟨endpoint, hendpoint, hendpointPublic⟩ := hjoins.endpoint
    obtain ⟨signing, hsigning, hsigningPublic⟩ := hjoins.signing
    obtain ⟨hsigner, hpermission, hsignature⟩ := hjoins.signer
    obtain ⟨hcertificate, hverifies⟩ := hjoins.ticket.admin
    -- the configuration is valid, so that it is the content of a validated one
    obtain ⟨v, hv⟩ : ∃ v : ValidatedNetworkConfig, v.asConfig = c :=
      ⟨⟨c, root, e.networkId, nowMs, NetworkConfigV1.check_eq_ok.mpr hjoins.opens.valid⟩, rfl⟩
    unfold join
    refine Task.run_lift_bind_eq_ok.mpr ⟨(), hstores, ?_⟩
    refine readExistingOr_bind_eq_ok.mpr ⟨record, hrecord, ?_⟩
    refine Task.run_lift_bind_eq_ok.mpr ⟨prepared, mapError_eq_ok.mpr hprepared, ?_⟩
    refine Task.run_lift_bind_eq_ok.mpr ⟨⟨prepared.request.payload⟩, mapError_eq_ok.mpr
      (PreparedJoinRequest.verify_eq_ok.mpr ⟨hjoins.request.1, hjoins.request.2, rfl⟩), ?_⟩
    refine Task.run_lift_bind_eq_ok.mpr ⟨(), mapError_eq_ok.mpr
      (JoinTicket.verify_eq_ok.mpr ⟨a, m, b, e, hjoins.ticket⟩), ?_⟩
    refine loadEncryption_bind_eq_ok.mpr ⟨key, hkey, ?_⟩
    refine Task.run_lift_bind_eq_ok.mpr ⟨(), failIf_neg (not_not.mpr hpublic), ?_⟩
    refine loadSecret32_bind_eq_ok.mpr ⟨endpoint, hendpoint, ?_⟩
    refine Task.run_lift_bind_eq_ok.mpr ⟨(), failIf_neg (not_not.mpr hendpointPublic), ?_⟩
    refine loadSigning_bind_eq_ok.mpr ⟨signing, hsigning, ?_⟩
    refine Task.run_lift_bind_eq_ok.mpr ⟨(), failIf_neg (not_not.mpr hsigningPublic), ?_⟩
    refine Task.run_lift_bind_eq_ok.mpr ⟨a, mapError_eq_ok.mpr
      (Signed.fromBytes_eq_ok.mpr hcertificate), ?_⟩
    refine Task.run_lift_bind_eq_ok.mpr ⟨⟨a.payload, hverifies.valid_key⟩, mapError_eq_ok.mpr
      (AdminCertificate.verify_eq_ok.mpr ⟨hverifies, rfl⟩), ?_⟩
    refine Task.run_lift_bind_eq_ok.mpr ⟨e, mapError_eq_ok.mpr hjoins.ticket.envelope, ?_⟩
    refine Task.run_lift_bind_eq_ok.mpr ⟨⟨v, e.head⟩, mapError_eq_ok.mpr ?_, ?_⟩
    · obtain ⟨hnetwork, hhead⟩ := hjoins.ticket.header
      rw [EncryptedConfigEnvelope.openConfigWithVerifiedAdmin_eq_ok, hv]
      exact ⟨⟨hnetwork.symm, hverifies.network.trans hnetwork.symm⟩, hsigner, hpermission,
        hsignature, hhead, hjoins.opens, rfl⟩
    refine Task.run_lift_bind_eq_ok.mpr ⟨m, mapError_eq_ok.mpr
      (Signed.fromBytes_eq_ok.mpr hjoins.ticket.member.1), ?_⟩
    refine Task.run_lift_bind_eq_ok.mpr ⟨(), failIf_neg ?_, ?_⟩
    · simp only [not_or, Decidable.not_not]
      exact hjoins.member
    refine Task.run_lift_bind_eq_ok.mpr ⟨batch, mapError_eq_ok.mpr hbatch, ?_⟩
    exact commitOr_bind_eq_ok.mpr ⟨version, w', hcommit, hsecrets, rfl⟩

theorem join_run_cases {root : NetworkRootPublic} {nowMs : UInt64} {w w' : Stores}
    {r : Except MembershipError ConfigHead}
    (h : (join stores root ticket nowMs).run serve w = (r, w')) :
    (∃ e, r = .error e ∧ w' = w) ∨ ∃ head, r = .ok head := by
  unfold join at h
  rcases Task.run_lift_cases h with herror | ⟨_, -, h⟩
  · exact .inl herror
  rcases readExistingOr_bind_cases h with herror | ⟨_, -, h⟩
  · exact .inl herror
  rcases Task.run_lift_cases h with herror | ⟨_, -, h⟩
  · exact .inl herror
  rcases Task.run_lift_cases h with herror | ⟨_, -, h⟩
  · exact .inl herror
  rcases Task.run_lift_cases h with herror | ⟨_, -, h⟩
  · exact .inl herror
  rcases Task.run_quiet_cases (loadEncryption_run_snd _ w) h with herror | ⟨_, h⟩
  · exact .inl herror
  rcases Task.run_lift_cases h with herror | ⟨_, -, h⟩
  · exact .inl herror
  rcases Task.run_quiet_cases (loadSecret32_run_snd _ _ w) h with herror | ⟨_, h⟩
  · exact .inl herror
  rcases Task.run_lift_cases h with herror | ⟨_, -, h⟩
  · exact .inl herror
  rcases Task.run_quiet_cases (loadSigning_run_snd _ w) h with herror | ⟨_, h⟩
  · exact .inl herror
  rcases Task.run_lift_cases h with herror | ⟨_, -, h⟩
  · exact .inl herror
  rcases Task.run_lift_cases h with herror | ⟨_, -, h⟩
  · exact .inl herror
  rcases Task.run_lift_cases h with herror | ⟨_, -, h⟩
  · exact .inl herror
  rcases Task.run_lift_cases h with herror | ⟨_, -, h⟩
  · exact .inl herror
  rcases Task.run_lift_cases h with herror | ⟨opened, -, h⟩
  · exact .inl herror
  rcases Task.run_lift_cases h with herror | ⟨_, -, h⟩
  · exact .inl herror
  rcases Task.run_lift_cases h with herror | ⟨_, -, h⟩
  · exact .inl herror
  rcases Task.run_lift_cases h with herror | ⟨_, -, h⟩
  · exact .inl herror
  rcases commitOr_bind_cases h with herror | ⟨_, _, -, -, h⟩
  · exact .inl herror
  · exact .inr ⟨opened.head, (Prod.mk.inj h).1.symm⟩

end Weaver
