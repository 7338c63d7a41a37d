import Mathlib.Data.List.Sort
import Weaver.Crypto.Primitives
import Weaver.Lib.Pool
import Weaver.Lib.Versioned

/-!
# State and secret stores

The stores of `weaver-store`: a state store of versioned records under scoped keys, committed in
atomic batches, and a secret store that never overwrites a secret. A store program makes its
requests through `storeInterface`. `serve` answers them as the stores do; `storeMachine` adds the
failures of a backend, which may report an error for a request that it carried out as well as for
one that it did not.
-/

namespace Weaver

open Checked Wire Versioned Program

/-! ## Scopes and keys -/

inductive ScopeKind where
  | member
  | authority
deriving DecidableEq

structure StoreScope where
  kind : ScopeKind
  networkId : NetworkId
deriving DecidableEq

def StoreScope.member (networkId : NetworkId) : StoreScope := ⟨.member, networkId⟩

def StoreScope.authority (networkId : NetworkId) : StoreScope := ⟨.authority, networkId⟩

def maxKeyLen : ℕ := 1024

def maxValueLen : ℕ := 16 * 1024 * 1024

structure StoreKey where
  asBytes : Bytes
  valid : 0 < asBytes.length ∧ asBytes.length ≤ maxKeyLen
deriving DecidableEq

abbrev ExpectedVersion := Versioned.Expected

abbrev VersionedBytes := Versioned.Entry Bytes

abbrev VersionedBytes.bytes (r : VersionedBytes) : Bytes := r.value

inductive StoreError where
  | invalidKeyLength (length : ℕ)
  | valueTooLarge (length : ℕ)
  | duplicateBatchKey (key : StoreKey)
  | versionConflict (key : StoreKey) (expected : ExpectedVersion) (actual : Option UInt64)
  | schemaTooNew (found supported : UInt32)
  | backend (message : String)
deriving DecidableEq

def StoreKey.new (bytes : Bytes) : Except StoreError StoreKey :=
  if h : 0 < bytes.length ∧ bytes.length ≤ maxKeyLen then .ok ⟨bytes, h⟩
  else .error (.invalidKeyLength bytes.length)

theorem StoreKey.new_asBytes (key : StoreKey) : StoreKey.new key.asBytes = .ok key := by
  rw [StoreKey.new, dif_pos key.valid]

theorem StoreKey.ext_bytes {k l : StoreKey} (h : k.asBytes = l.asBytes) : k = l := by
  obtain ⟨k, hk⟩ := k
  obtain ⟨l, hl⟩ := l
  subst h
  rfl

/-- `StoreKey` is ordered by its bytes. -/
instance : LinearOrder StoreKey :=
  LinearOrder.lift' StoreKey.asBytes fun _ _ => StoreKey.ext_bytes

structure StoredEntry where
  key : StoreKey
  value : VersionedBytes
deriving DecidableEq

def currentSchemaVersion : UInt32 := 1

/-- `ensure_supported_schema`, of what `StateStore::schema_version` has answered. -/
def ensureSupportedSchema (schemaVersion : Except StoreError UInt32) : Except StoreError Unit := do
  let found ← schemaVersion
  failIf (currentSchemaVersion < found) (.schemaTooNew found currentSchemaVersion)

/-! ## Batches -/

/-- `AtomicBatch`: operations on distinct keys of one scope. -/
structure AtomicBatch where
  scope : StoreScope
  operations : List (Operation StoreKey Bytes)
  distinct : (operations.map Operation.key).Nodup

def AtomicBatch.new (scope : StoreScope) : AtomicBatch := ⟨scope, [], List.nodup_nil⟩

/-- `insert_unique`, with the operation that it admits. -/
def AtomicBatch.insertUnique (batch : AtomicBatch) (op : Operation StoreKey Bytes) :
    Except StoreError AtomicBatch :=
  if h : op.key ∈ batch.operations.map Operation.key then .error (.duplicateBatchKey op.key)
  else .ok
    { batch with
      operations := batch.operations ++ [op]
      distinct := by
        rw [List.map_append, List.map_singleton, ← List.concat_eq_append]
        exact batch.distinct.concat h }

def AtomicBatch.put (batch : AtomicBatch) (key : StoreKey) (value : Bytes)
    (expected : ExpectedVersion) : Except StoreError AtomicBatch := do
  failIf (maxValueLen < value.length) (.valueTooLarge value.length)
  batch.insertUnique (.put key value expected)

def AtomicBatch.delete (batch : AtomicBatch) (key : StoreKey) (expected : ExpectedVersion) :
    Except StoreError AtomicBatch :=
  batch.insertUnique (.delete key expected)

variable {b : AtomicBatch}

variable {op : Operation StoreKey Bytes}

theorem AtomicBatch.insertUnique_eq_ok {batch : AtomicBatch} :
    batch.insertUnique op = .ok b ↔
      op.key ∉ batch.operations.map Operation.key ∧ b.scope = batch.scope ∧
        b.operations = batch.operations ++ [op] := by
  unfold AtomicBatch.insertUnique
  split
  · next h => simp [h]
  · next h =>
    rw [Except.ok.injEq]
    constructor
    · intro hb
      rw [← hb]
      exact ⟨h, rfl, rfl⟩
    · rintro ⟨-, hscope, hops⟩
      obtain ⟨scope, ops, hd⟩ := b
      subst hscope hops
      rfl

variable {key : StoreKey}

variable {expected : ExpectedVersion}

variable {value : Bytes}

theorem AtomicBatch.put_eq_ok {batch : AtomicBatch} :
    batch.put key value expected = .ok b ↔
      value.length ≤ maxValueLen ∧ key ∉ batch.operations.map Operation.key ∧
        b.scope = batch.scope ∧ b.operations = batch.operations ++ [.put key value expected] := by
  unfold AtomicBatch.put
  simp only [bind_eq_ok, failIf_eq_ok, not_lt, exists_and_left, exists_const,
    AtomicBatch.insertUnique_eq_ok]
  rfl

theorem AtomicBatch.delete_eq_ok {batch : AtomicBatch} :
    batch.delete key expected = .ok b ↔
      key ∉ batch.operations.map Operation.key ∧
        b.scope = batch.scope ∧ b.operations = batch.operations ++ [.delete key expected] := by
  unfold AtomicBatch.delete
  rw [AtomicBatch.insertUnique_eq_ok]
  rfl

theorem AtomicBatch.ext_operations {b' : AtomicBatch} (hscope : b.scope = b'.scope)
    (hops : b.operations = b'.operations) : b = b' := by
  obtain ⟨scope, ops, _⟩ := b
  obtain ⟨scope', ops', _⟩ := b'
  subst hscope hops
  rfl

theorem AtomicBatch.exists_put (batch : AtomicBatch) (key : StoreKey)
    (hlen : value.length ≤ maxValueLen) (hnew : key ∉ batch.operations.map Operation.key)
    (expected : ExpectedVersion) :
    ∃ b, batch.put key value expected = .ok b ∧
      b.operations.map Operation.key = batch.operations.map Operation.key ++ [key] := by
  let b : AtomicBatch :=
    { batch with
      operations := batch.operations ++ [.put key value expected]
      distinct := by
        rw [List.map_append, List.map_singleton, ← List.concat_eq_append]
        exact batch.distinct.concat hnew }
  exact ⟨b, AtomicBatch.put_eq_ok.mpr ⟨hlen, hnew, rfl, rfl⟩, List.map_append⟩

/-! ## The state store -/

abbrev StateStore := Versioned.Store (StoreScope × StoreKey) Bytes

def inScope (scope : StoreScope) :
    Operation StoreKey Bytes → Operation (StoreScope × StoreKey) Bytes
  | .put key value expected => .put (scope, key) value expected
  | .delete key expected => .delete (scope, key) expected

def AtomicBatch.scopedOperations (batch : AtomicBatch) :
    List (Operation (StoreScope × StoreKey) Bytes) :=
  batch.operations.map (inScope batch.scope)

def StoreError.ofRejection : Rejection (StoreScope × StoreKey) → StoreError
  | .conflict key expected actual => .versionConflict key.2 expected actual
  | .recordOverflow => .backend "record version overflow"
  | .commitOverflow => .backend "commit version overflow"

/-- `StateStore::commit`. -/
def StateStore.commitBatch (s : StateStore) (batch : AtomicBatch) :
    Except StoreError (UInt64 × StateStore) :=
  (s.commit batch.scopedOperations).mapError StoreError.ofRejection

/-- `StateStore::scan_prefix`: the entries of a scope whose keys begin with the bytes, in the order
of their keys. -/
def StateStore.scanPrefix (s : StateStore) (scope : StoreScope) (start : Bytes) :
    List StoredEntry :=
  ((s.records.entries.filter fun e => e.1.1 = scope ∧ start <+: e.1.2.asBytes).map
    fun e => ⟨e.1.2, e.2⟩).insertionSort fun a b => a.key ≤ b.key

variable {s : StateStore} {scope : StoreScope}

theorem StateStore.mem_scanPrefix {start : Bytes} {entry : StoredEntry} :
    entry ∈ s.scanPrefix scope start ↔
      s.get (scope, entry.key) = some entry.value ∧ start <+: entry.key.asBytes := by
  unfold StateStore.scanPrefix Versioned.Store.get
  rw [List.mem_insertionSort, List.mem_map]
  constructor
  · rintro ⟨⟨⟨scope', key⟩, value⟩, hmem, rfl⟩
    simp only [List.mem_filter, decide_eq_true_eq] at hmem
    obtain ⟨hmem, rfl, hstart⟩ := hmem
    exact ⟨AList.mem_lookup_iff.mpr hmem, hstart⟩
  · rintro ⟨hget, hstart⟩
    have hmem := AList.mem_lookup_iff.mp hget
    refine ⟨⟨(scope, entry.key), entry.value⟩, ?_, rfl⟩
    simp only [List.mem_filter, decide_eq_true_eq]
    exact ⟨hmem, trivial, hstart⟩

@[simp]
theorem inScope_key (scope : StoreScope) (op : Operation StoreKey Bytes) :
    (inScope scope op).key = (scope, op.key) := by
  cases op <;> rfl

theorem AtomicBatch.scopedOperations_distinct (batch : AtomicBatch) :
    (batch.scopedOperations.map Operation.key).Nodup := by
  have hmap : batch.scopedOperations.map Operation.key =
      (batch.operations.map Operation.key).map fun key => (batch.scope, key) := by
    unfold AtomicBatch.scopedOperations
    rw [List.map_map, List.map_map]
    exact List.map_congr_left fun op _ => inScope_key batch.scope op
  rw [hmap]
  exact batch.distinct.map fun _ _ h => (Prod.mk.inj h).2

theorem StateStore.commitBatch_spec {s' : StateStore} {batch : AtomicBatch} {v : UInt64}
    (h : s.commitBatch batch = .ok (v, s')) :
    (∀ op ∈ batch.scopedOperations, op.expected.Holds (s.version op.key)) ∧
      Performed s s' batch.scopedOperations := by
  unfold StateStore.commitBatch at h
  rw [mapError_eq_ok] at h
  exact Versioned.Store.commit_spec batch.scopedOperations_distinct h

theorem StateStore.exists_commitBatch {batch : AtomicBatch}
    (hexpected : ∀ op ∈ batch.operations, op.expected.Holds (s.version (batch.scope, op.key)))
    (hroom : s.HasRoom batch.operations.length) :
    ∃ v s', s.commitBatch batch = .ok (v, s') := by
  have hscoped : ∀ op ∈ batch.scopedOperations, op.expected.Holds (s.version op.key) := by
    intro op hop
    obtain ⟨op₀, hop₀, rfl⟩ := List.mem_map.mp hop
    rw [inScope_key]
    have hholds := hexpected op₀ hop₀
    cases op₀ with
    | put key value expected => exact hholds
    | delete key expected => exact hholds
  have hlength : batch.scopedOperations.length = batch.operations.length := List.length_map _
  rw [← hlength] at hroom
  obtain ⟨v, s', hcommit⟩ := Versioned.Store.exists_commit hscoped hroom
  refine ⟨v, s', ?_⟩
  unfold StateStore.commitBatch
  rw [hcommit]
  rfl

theorem StateStore.commitBatch_next {s' : StateStore} {batch : AtomicBatch} {v : UInt64}
    (h : s.commitBatch batch = .ok (v, s')) :
    s'.nextRecord.toNat ≤ s.nextRecord.toNat + batch.operations.length ∧
      s'.nextCommit.toNat = s.nextCommit.toNat + 1 := by
  unfold StateStore.commitBatch at h
  rw [mapError_eq_ok] at h
  have hnext := Versioned.Store.commit_next h
  have hlength : batch.scopedOperations.length = batch.operations.length := List.length_map _
  rw [hlength] at hnext
  exact hnext

/-! ## The secret store -/

abbrev SecretId := Bytes32

inductive SecretStoreError where
  | notFound
  | alreadyExistsDifferent
  | authenticationFailed
  | backend (message : String)
deriving DecidableEq

structure SecretStore where
  secrets : AList fun _ : SecretId => Bytes

def SecretStore.open (s : SecretStore) (id : SecretId) : Except SecretStoreError Bytes :=
  okOr (s.secrets.lookup id) .notFound

/-- `SecretStore::seal`: a secret is never overwritten. -/
def SecretStore.seal (s : SecretStore) (id : SecretId) (plaintext : Bytes) :
    Except SecretStoreError Unit × SecretStore :=
  match s.secrets.lookup id with
  | some existing =>
    if existing = plaintext then (.ok (), s) else (.error .alreadyExistsDifferent, s)
  | none => (.ok (), ⟨s.secrets.insert id plaintext⟩)

/-- `SecretStore::delete`, which is content where there is no secret. -/
def SecretStore.delete (s : SecretStore) (id : SecretId) : SecretStore := ⟨s.secrets.erase id⟩

variable {id : SecretId}

theorem SecretStore.open_delete_ne {s : SecretStore} {id' : SecretId} (h : id ≠ id') :
    (s.delete id').open id = s.open id := by
  unfold SecretStore.open SecretStore.delete
  rw [AList.lookup_erase_ne h]

variable {plaintext : Bytes}

theorem SecretStore.open_seal_of_ok {s : SecretStore} {id' : SecretId} {secret : Bytes}
    (h : s.open id = .ok secret) : (s.seal id' plaintext).2.open id = .ok secret := by
  unfold SecretStore.open at h ⊢
  rw [okOr_eq_ok] at h ⊢
  unfold SecretStore.seal
  cases hlookup : s.secrets.lookup id' with
  | some existing =>
    simp only
    split <;> exact h
  | none =>
    have hne : id ≠ id' := by
      intro heq
      rw [heq, hlookup] at h
      cases h
    exact (AList.lookup_insert_ne hne).trans h

theorem SecretStore.open_of_seal {s : SecretStore} {u : Unit}
    (h : (s.seal id plaintext).1 = .ok u) : (s.seal id plaintext).2.open id = .ok plaintext := by
  unfold SecretStore.seal at h ⊢
  unfold SecretStore.open
  rw [okOr_eq_ok]
  cases hlookup : s.secrets.lookup id with
  | some existing =>
    rw [hlookup] at h
    simp only at h ⊢
    split at h
    · next heq =>
      rw [if_pos heq, hlookup, heq]
    · cases h
  | none => exact AList.lookup_insert s.secrets

/-! ## Requests and their answers -/

inductive StoreRequest where
  | read (scope : StoreScope) (key : StoreKey)
  | commit (batch : AtomicBatch)
  | scanPrefix (scope : StoreScope) (start : Bytes)
  | openSecret (id : SecretId)
  | sealSecret (id : SecretId) (plaintext : Bytes)
  | deleteSecret (id : SecretId)

abbrev StoreRequest.Answer : StoreRequest → Type
  | .read _ _ => Except StoreError (Option VersionedBytes)
  | .commit _ => Except StoreError UInt64
  | .scanPrefix _ _ => Except StoreError (List StoredEntry)
  | .openSecret _ => Except SecretStoreError Bytes
  | .sealSecret _ _ => Except SecretStoreError Unit
  | .deleteSecret _ => Except SecretStoreError Unit

abbrev storeInterface : Interface := ⟨StoreRequest, StoreRequest.Answer⟩

abbrev StoreTask (ε α : Type) := Task storeInterface ε α

structure Stores where
  state : StateStore
  secrets : SecretStore

def Stores.empty : Stores := ⟨Versioned.Store.empty, ⟨∅⟩⟩

def Stores.record (w : Stores) (scope : StoreScope) (key : StoreKey) : Option VersionedBytes :=
  w.state.get (scope, key)

def Stores.commit (w : Stores) (batch : AtomicBatch) : Except StoreError UInt64 × Stores :=
  match w.state.commitBatch batch with
  | .ok (version, state) => (.ok version, { w with state })
  | .error e => (.error e, w)

def serve : Server storeInterface Stores
  | w, .read scope key => ((.ok (w.record scope key) : Except StoreError _), w)
  | w, .commit batch => w.commit batch
  | w, .scanPrefix scope start => ((.ok (w.state.scanPrefix scope start) : Except StoreError _), w)
  | w, .openSecret id => (w.secrets.open id, w)
  | w, .sealSecret id plaintext =>
    ((w.secrets.seal id plaintext).1, { w with secrets := (w.secrets.seal id plaintext).2 })
  | w, .deleteSecret id =>
    ((.ok () : Except SecretStoreError Unit), { w with secrets := w.secrets.delete id })

def backendFailure (message : String) : (r : StoreRequest) → r.Answer
  | .read _ _ => .error (.backend message)
  | .commit _ => .error (.backend message)
  | .scanPrefix _ _ => .error (.backend message)
  | .openSecret _ => .error (.backend message)
  | .sealSecret _ _ => .error (.backend message)
  | .deleteSecret _ => .error (.backend message)

/-- The stores answer a request as `serve` does, or their backend fails, before or after it carried
the request out. -/
def storeMachine : Machine storeInterface Stores := fun w r answer w' =>
  (answer, w') = serve w r ∨
    ∃ message, answer = backendFailure message r ∧ (w' = w ∨ w' = (serve w r).2)

theorem storeMachine_read {w w' : Stores} {answer : Except StoreError (Option VersionedBytes)}
    (h : storeMachine w (.read scope key) answer w') :
    w' = w ∧ ∀ record, answer = .ok record → record = w.record scope key := by
  rcases h with h | ⟨message, hanswer, hw⟩
  · obtain ⟨rfl, rfl⟩ := Prod.mk.inj h
    exact ⟨rfl, fun record hrecord => (Except.ok.inj hrecord).symm⟩
  · have hw' : w' = w := by
      rcases hw with hw | hw
      · exact hw
      · exact hw
    refine ⟨hw', fun record hrecord => ?_⟩
    rw [hanswer] at hrecord
    cases hrecord

variable {w w' : Stores} {batch : AtomicBatch} {version : UInt64}

theorem Stores.commit_of_ok {state : StateStore}
    (h : w.state.commitBatch batch = .ok (version, state)) :
    w.commit batch = (.ok version, { w with state }) := by
  unfold Stores.commit
  rw [h]

theorem Stores.commit_of_error {e : StoreError} (h : w.state.commitBatch batch = .error e) :
    w.commit batch = (.error e, w) := by
  unfold Stores.commit
  rw [h]

theorem Stores.commit_eq_ok :
    w.commit batch = (.ok version, w') ↔
      w.state.commitBatch batch = .ok (version, w'.state) ∧ w'.secrets = w.secrets := by
  cases hc : w.state.commitBatch batch with
  | error e => simp [Stores.commit_of_error hc]
  | ok result =>
    obtain ⟨version', state⟩ := result
    rw [Stores.commit_of_ok hc]
    obtain ⟨state', secrets'⟩ := w'
    simp only [Prod.mk.injEq, Except.ok.injEq, Stores.mk.injEq]
    constructor
    · intro h
      exact ⟨⟨h.1, h.2.1⟩, h.2.2.symm⟩
    · intro h
      exact ⟨h.1.1, h.1.2, h.2.symm⟩

theorem storeMachine_commit {answer : Except StoreError UInt64}
    (h : storeMachine w (.commit batch) answer w') :
    (w' = w ∧ ∀ version, answer ≠ .ok version) ∨
      ∃ version, w.state.commitBatch batch = .ok (version, w'.state) ∧
        w'.secrets = w.secrets := by
  have hserve : serve w (.commit batch) = w.commit batch := rfl
  unfold storeMachine at h
  rw [hserve] at h
  cases hc : w.state.commitBatch batch with
  | error e =>
    rw [Stores.commit_of_error hc] at h
    left
    rcases h with h | ⟨message, hanswer, hw⟩
    · obtain ⟨rfl, rfl⟩ := Prod.mk.inj h
      exact ⟨rfl, fun version hv => by cases hv⟩
    · rw [hanswer]
      exact ⟨or_self_iff.mp hw, fun version hv => by cases hv⟩
  | ok result =>
    obtain ⟨version, state⟩ := result
    rw [Stores.commit_of_ok hc] at h
    rcases h with h | ⟨message, hanswer, hw⟩
    · obtain ⟨rfl, rfl⟩ := Prod.mk.inj h
      exact .inr ⟨version, rfl, rfl⟩
    · rcases hw with rfl | rfl
      · rw [hanswer]
        exact .inl ⟨rfl, fun version hv => by cases hv⟩
      · exact .inr ⟨version, rfl, rfl⟩

/-! ## What a committed batch leaves -/

theorem Stores.record_of_missing (h : Expected.missing.Holds (w.state.version (scope, key))) :
    w.record scope key = none :=
  Option.map_eq_none_iff.mp h

theorem Stores.record_of_exact (h : (Expected.exact version).Holds (w.state.version (scope, key))) :
    ∃ record, w.record scope key = some record ∧ record.version = version :=
  Option.map_eq_some_iff.mp h

theorem Stores.missing_of_record (h : w.record scope key = none) :
    Expected.missing.Holds (w.state.version (scope, key)) :=
  Option.map_eq_none_iff.mpr h

theorem Stores.exact_of_record {record : VersionedBytes} (h : w.record scope key = some record) :
    (Expected.exact record.version).Holds (w.state.version (scope, key)) :=
  Option.map_eq_some_iff.mpr ⟨record, h, rfl⟩

theorem Stores.expected_of_commit (h : w.state.commitBatch batch = .ok (version, w'.state))
    (hop : op ∈ batch.operations) :
    op.expected.Holds (w.state.version (batch.scope, op.key)) := by
  have hmem : inScope batch.scope op ∈ batch.scopedOperations := List.mem_map_of_mem hop
  have hholds := (StateStore.commitBatch_spec h).1 _ hmem
  rw [inScope_key] at hholds
  cases op with
  | put key value expected => exact hholds
  | delete key expected => exact hholds

variable {expected : ExpectedVersion}

theorem Stores.record_of_put (h : w.state.commitBatch batch = .ok (version, w'.state))
    (hop : .put key value expected ∈ batch.operations) :
    ∃ v, w'.record batch.scope key = some ⟨v, value⟩ := by
  have hmem : inScope batch.scope (.put key value expected) ∈ batch.scopedOperations :=
    List.mem_map_of_mem hop
  obtain ⟨v, hget, -⟩ := (StateStore.commitBatch_spec h).2.put _ _ _ hmem
  exact ⟨v, hget⟩

theorem Stores.record_of_delete (h : w.state.commitBatch batch = .ok (version, w'.state))
    (hop : .delete key expected ∈ batch.operations) :
    w'.record batch.scope key = none := by
  have hmem : inScope batch.scope (.delete key expected) ∈ batch.scopedOperations :=
    List.mem_map_of_mem hop
  exact (StateStore.commitBatch_spec h).2.delete _ _ hmem

theorem Stores.record_of_other (h : w.state.commitBatch batch = .ok (version, w'.state))
    (hkey : ∀ op ∈ batch.operations, op.key ≠ key) :
    w'.record batch.scope key = w.record batch.scope key := by
  refine (StateStore.commitBatch_spec h).2.other (batch.scope, key) ?_
  intro op hop heq
  obtain ⟨op', hop', rfl⟩ := List.mem_map.mp hop
  rw [inScope_key] at heq
  exact hkey op' hop' (Prod.mk.inj heq).2

/-- The commit of a batch that creates one record. -/
theorem Stores.create_spec (hbatch : (AtomicBatch.new scope).put key value .missing = .ok batch)
    (h : w.state.commitBatch batch = .ok (version, w'.state)) :
    w.record scope key = none ∧ (∃ v, w'.record scope key = some ⟨v, value⟩) ∧
      ∀ other, other ≠ key → w'.record scope other = w.record scope other := by
  obtain ⟨-, -, hscope, hops⟩ := AtomicBatch.put_eq_ok.mp hbatch
  obtain rfl : batch.scope = scope := hscope
  have hop : .put key value .missing ∈ batch.operations := by
    rw [hops]
    exact List.mem_singleton_self _
  refine ⟨Stores.record_of_missing (Stores.expected_of_commit h hop), Stores.record_of_put h hop, ?_⟩
  intro other hother
  refine Stores.record_of_other h fun op hmem => ?_
  rw [hops] at hmem
  rw [List.mem_singleton.mp hmem]
  exact hother.symm

theorem Stores.record_of_scope (h : w.state.commitBatch batch = .ok (version, w'.state))
    (hscope : batch.scope ≠ scope) (key : StoreKey) :
    w'.record scope key = w.record scope key := by
  refine (StateStore.commitBatch_spec h).2.other (scope, key) ?_
  intro op hop heq
  obtain ⟨op', hop', rfl⟩ := List.mem_map.mp hop
  rw [inScope_key] at heq
  exact hscope (Prod.mk.inj heq).1

end Weaver
