import Mathlib.Data.Prod.Lex
import Weaver.Lib.Sorted
import Weaver.Store.Stores

/-!
# The state store in memory

`MemoryStateStore` keeps its records in a map that is ordered by scope and key, and counts the
versions of records and of commits with plain additions. `Represents` relates it to the store that
the other modules use: while the counters do not overflow, a commit has the same result on both and
they stay related (`Represents.commit`).

A `Backend` is what a program sees of a state store: a sequence of commands has one run on it.
-/

namespace Weaver

open Checked Wire Versioned

/-! ## The order of the records -/

/-- The variants of `ScopeKind`, in their order. -/
def ScopeKind.rank : ScopeKind → ℕ
  | .member => 0
  | .authority => 1

/-- `ScopeKind` is ordered by its variants. -/
instance : LinearOrder ScopeKind :=
  LinearOrder.lift' ScopeKind.rank (by
    intro a b h
    cases a <;> cases b <;> first | rfl | cases h)

/-- `StoreScope` is ordered by its fields. -/
instance : LinearOrder StoreScope :=
  LinearOrder.lift' (fun s => toLex (s.kind, s.networkId.asBytes.val)) (by
    intro a b h
    obtain ⟨hkind, hbytes⟩ := Prod.mk.inj (toLex.injective h)
    obtain ⟨k, ⟨n⟩⟩ := a
    obtain ⟨k', ⟨n'⟩⟩ := b
    obtain rfl : k = k' := hkind
    obtain rfl : n = n' := Subtype.ext hbytes
    rfl)

abbrev RecordKey := StoreScope ×ₗ StoreKey

/-! ## The store -/

structure MemoryState where
  schemaVersion : UInt32
  nextRecordVersion : UInt64
  nextCommitVersion : UInt64
  records : Sorted.Map RecordKey VersionedBytes

namespace MemoryState

/-- `MemoryStateStore::new`. -/
def new : MemoryState := ⟨currentSchemaVersion, 1, 1, .empty⟩

def get (m : MemoryState) (scope : StoreScope) (key : StoreKey) : Option VersionedBytes :=
  m.records.get (toLex (scope, key))

/-- `MemoryStateStore::read`. -/
def read (m : MemoryState) (scope : StoreScope) (key : StoreKey) :
    Except StoreError (Option VersionedBytes) :=
  .ok (m.get scope key)

/-- `MemoryStateStore::scan_prefix`. -/
def scanPrefix (m : MemoryState) (scope : StoreScope) (start : Bytes) :
    Except StoreError (List StoredEntry) :=
  .ok ((m.records.entries.filter fun e =>
    (ofLex e.1).1 = scope ∧ start <+: (ofLex e.1).2.asBytes).map fun e => ⟨(ofLex e.1).2, e.2⟩)

/-- The first loop of `MemoryStateStore::commit`: the expected versions. -/
def check (m : MemoryState) (scope : StoreScope) :
    List (Operation StoreKey Bytes) → Except StoreError Unit
  | [] => .ok ()
  | op :: rest => do
    let actual := (m.get scope op.key).map Entry.version
    failIf (¬ op.expected.Holds actual) (.versionConflict op.key op.expected actual)
    m.check scope rest

/-- The second loop of `MemoryStateStore::commit`, for one operation. The addition wraps around, as
it does where overflow is not checked. -/
def perform (scope : StoreScope) (m : MemoryState) : Operation StoreKey Bytes → MemoryState
  | .put key value _ =>
    { m with
      nextRecordVersion := m.nextRecordVersion + 1
      records := m.records.insert (toLex (scope, key)) ⟨m.nextRecordVersion, value⟩ }
  | .delete key _ => { m with records := m.records.erase (toLex (scope, key)) }

/-- `MemoryStateStore::commit`. -/
def commit (m : MemoryState) (batch : AtomicBatch) : Except StoreError UInt64 × MemoryState :=
  match m.check batch.scope batch.operations with
  | .error e => (.error e, m)
  | .ok () =>
    let m' := batch.operations.foldl (perform batch.scope) m
    (.ok m'.nextCommitVersion, { m' with nextCommitVersion := m'.nextCommitVersion + 1 })

end MemoryState

/-! ## Commands -/

structure Backend (σ : Type) where
  /-- `StateStore::read`. -/
  read : σ → StoreScope → StoreKey → Except StoreError (Option VersionedBytes)
  /-- `StateStore::scan_prefix`. -/
  scanPrefix : σ → StoreScope → Bytes → Except StoreError (List StoredEntry)
  /-- `StateStore::commit`. -/
  commit : σ → AtomicBatch → Except StoreError UInt64 × σ
  reopen : σ → Except StoreError Unit × σ

/-- What a program asks of a state store. A batch is built from a list of operations, each of which
is added to it or refused. -/
inductive StoreCommand where
  | commit (scope : StoreScope) (edits : List (Operation StoreKey Bytes))
  | read (scope : StoreScope) (key : StoreKey)
  | scan (scope : StoreScope) (start : Bytes)
  | reopen
deriving DecidableEq

inductive StoreOutcome where
  | committed (edits : List (Except StoreError Unit)) (result : Except StoreError UInt64)
  | record (result : Except StoreError (Option VersionedBytes))
  | entries (result : Except StoreError (List StoredEntry))
  | reopened (result : Except StoreError Unit)
deriving DecidableEq

def AtomicBatch.edit (batch : AtomicBatch) : Operation StoreKey Bytes →
    Except StoreError AtomicBatch
  | .put key value expected => batch.put key value expected
  | .delete key expected => batch.delete key expected

def AtomicBatch.editAll (batch : AtomicBatch) : List (Operation StoreKey Bytes) →
    List (Except StoreError Unit) × AtomicBatch
  | [] => ([], batch)
  | op :: rest =>
    match batch.edit op with
    | .ok batch' => (.ok () :: (batch'.editAll rest).1, (batch'.editAll rest).2)
    | .error e => (.error e :: (batch.editAll rest).1, (batch.editAll rest).2)

def builtBatch (scope : StoreScope) (edits : List (Operation StoreKey Bytes)) : AtomicBatch :=
  ((AtomicBatch.new scope).editAll edits).2

namespace Backend

variable {σ : Type}

def step (B : Backend σ) (s : σ) : StoreCommand → StoreOutcome × σ
  | .commit scope edits =>
    let r := B.commit s (builtBatch scope edits)
    (.committed ((AtomicBatch.new scope).editAll edits).1 r.1, r.2)
  | .read scope key => (.record (B.read s scope key), s)
  | .scan scope start => (.entries (B.scanPrefix s scope start), s)
  | .reopen => (.reopened (B.reopen s).1, (B.reopen s).2)

def after (B : Backend σ) (s : σ) : List StoreCommand → σ
  | [] => s
  | c :: rest => B.after (B.step s c).2 rest

def log (B : Backend σ) (s : σ) : List StoreCommand → List (StoreCommand × StoreOutcome)
  | [] => []
  | c :: rest => (c, (B.step s c).1) :: B.log (B.step s c).2 rest

theorem after_append (B : Backend σ) (s : σ) (cs cs' : List StoreCommand) :
    B.after s (cs ++ cs') = B.after (B.after s cs) cs' := by
  induction cs generalizing s with
  | nil => rfl
  | cons c rest ih => rw [List.cons_append, after, after, ih]

end Backend

/-- `MemoryStateStore`, which stays open. -/
def memoryBackend : Backend MemoryState where
  read := MemoryState.read
  scanPrefix := MemoryState.scanPrefix
  commit := MemoryState.commit
  reopen m := (.ok (), m)

/-! ## The records and their versions -/

def putCount : List (Operation StoreKey Bytes) → ℕ
  | [] => 0
  | .put .. :: rest => putCount rest + 1
  | .delete .. :: rest => putCount rest

theorem checkedAdd_one {a : UInt64} (h : a.toNat + 1 < 2^64) :
    checkedAdd a 1 = some (a + 1) ∧ (a + 1).toNat = a.toNat + 1 := by
  have hval : (a + 1).toNat = a.toNat + 1 := by
    rw [UInt64.toNat_add]
    exact Nat.mod_eq_of_lt h
  exact ⟨checkedAdd_eq_some.mpr hval, hval⟩

namespace MemoryState

def HasRoomFor (m : MemoryState) (batch : AtomicBatch) : Prop :=
  m.check batch.scope batch.operations = .ok () →
    m.nextRecordVersion.toNat + putCount batch.operations < 2^64 ∧
      m.nextCommitVersion.toNat + 1 < 2^64

structure Represents (m : MemoryState) (s : StateStore) : Prop where
  get : ∀ scope key, m.get scope key = s.get (scope, key)
  record : m.nextRecordVersion = s.nextRecord
  commit : m.nextCommitVersion = s.nextCommit

variable {m : MemoryState} {s : StateStore}

theorem represents_new : new.Represents Versioned.Store.empty := by
  refine ⟨?_, rfl, rfl⟩
  intro scope key
  exact (AList.lookup_empty (β := fun _ => Entry Bytes) (scope, key)).symm

theorem Represents.check (h : m.Represents s) (scope : StoreScope)
    (ops : List (Operation StoreKey Bytes)) :
    m.check scope ops = (s.check (ops.map (inScope scope))).mapError StoreError.ofRejection := by
  induction ops with
  | nil => rfl
  | cons op rest ih =>
    have hexpected : (inScope scope op).expected = op.expected := by cases op <;> rfl
    have hversion : (m.get scope op.key).map Entry.version = s.version (scope, op.key) := by
      rw [h.get]
      rfl
    rw [List.map_cons, Versioned.Store.check, MemoryState.check, ih, inScope_key, hexpected,
      hversion]
    by_cases hholds : op.expected.Holds (s.version (scope, op.key))
    · rw [failIf_neg (not_not_intro hholds), failIf_neg (not_not_intro hholds)]
      rfl
    · rw [failIf_pos hholds, failIf_pos hholds]
      rfl

theorem Represents.perform (h : m.Represents s) (scope : StoreScope)
    (op : Operation StoreKey Bytes) (hroom : m.nextRecordVersion.toNat + putCount [op] < 2^64) :
    ∃ s', s.perform (inScope scope op) = .ok s' ∧ (m.perform scope op).Represents s' ∧
      (m.perform scope op).nextRecordVersion.toNat =
        m.nextRecordVersion.toNat + putCount [op] := by
  cases op with
  | put key value expected =>
    obtain ⟨hnext, hval⟩ := checkedAdd_one hroom
    rw [h.record] at hnext
    let s' : StateStore :=
      { s with
        records := s.records.insert (scope, key) ⟨s.nextRecord, value⟩
        nextRecord := s.nextRecord + 1 }
    refine ⟨s', ?_, ⟨?_, congrArg (· + 1) h.record, h.commit⟩, hval⟩
    · rw [inScope, Versioned.Store.perform, hnext]
      rfl
    · intro scope' key'
      rw [MemoryState.get, MemoryState.perform, Sorted.Map.get_insert]
      by_cases hkey : (scope, key) = (scope', key')
      · obtain ⟨rfl, rfl⟩ := Prod.mk.inj hkey
        rw [if_pos rfl, h.record]
        exact (AList.lookup_insert s.records).symm
      · rw [if_neg fun heq => hkey (toLex.injective heq)]
        exact (h.get scope' key').trans (AList.lookup_insert_ne fun heq => hkey heq.symm).symm
  | delete key expected =>
    refine ⟨{ s with records := s.records.erase (scope, key) }, rfl, ⟨?_, h.record, h.commit⟩, rfl⟩
    intro scope' key'
    rw [MemoryState.get, MemoryState.perform, Sorted.Map.get_erase]
    by_cases hkey : (scope, key) = (scope', key')
    · obtain ⟨rfl, rfl⟩ := Prod.mk.inj hkey
      rw [if_pos rfl]
      exact (AList.lookup_erase (scope, key) s.records).symm
    · rw [if_neg fun heq => hkey (toLex.injective heq)]
      exact (h.get scope' key').trans (AList.lookup_erase_ne fun heq => hkey heq.symm).symm

theorem Represents.performAll (h : m.Represents s) (scope : StoreScope)
    (ops : List (Operation StoreKey Bytes))
    (hroom : m.nextRecordVersion.toNat + putCount ops < 2^64) :
    ∃ s', s.performAll (ops.map (inScope scope)) = .ok s' ∧
      (ops.foldl (MemoryState.perform scope) m).Represents s' := by
  induction ops generalizing m s with
  | nil => exact ⟨s, rfl, h⟩
  | cons op rest ih =>
    have hcount : putCount (op :: rest) = putCount [op] + putCount rest := by
      cases op
      · exact Nat.add_comm _ _
      · exact (Nat.zero_add _).symm
    rw [hcount] at hroom
    obtain ⟨s₁, hperform, h₁, hnext⟩ := h.perform scope op (by omega)
    obtain ⟨s', hrest, h'⟩ := ih h₁ (by omega)
    refine ⟨s', ?_, h'⟩
    rw [List.map_cons, Versioned.Store.performAll, hperform, ok_bind, hrest]

theorem foldl_perform_commit (scope : StoreScope) (ops : List (Operation StoreKey Bytes))
    (m : MemoryState) :
    (ops.foldl (MemoryState.perform scope) m).nextCommitVersion = m.nextCommitVersion := by
  induction ops generalizing m with
  | nil => rfl
  | cons op rest ih =>
    rw [List.foldl_cons, ih]
    cases op <;> rfl

theorem Represents.commit_cases (h : m.Represents s) {batch : AtomicBatch}
    (hroom : m.HasRoomFor batch) :
    (∃ e, m.commit batch = (.error e, m) ∧ s.commitBatch batch = .error e) ∨
      ∃ version m' s', m.commit batch = (.ok version, m') ∧
        s.commitBatch batch = .ok (version, s') ∧ m'.Represents s' := by
  have hcheck := h.check batch.scope batch.operations
  unfold MemoryState.commit StateStore.commitBatch Versioned.Store.commit
  cases hs : s.check batch.scopedOperations with
  | error e =>
    rw [show s.check (batch.operations.map (inScope batch.scope)) = _ from hs] at hcheck
    exact .inl ⟨_, by rw [hcheck]; rfl, rfl⟩
  | ok u =>
    rw [show s.check (batch.operations.map (inScope batch.scope)) = _ from hs] at hcheck
    obtain ⟨hrecords, hcommits⟩ := hroom hcheck
    obtain ⟨s₁, hperform, h₁⟩ := h.performAll batch.scope batch.operations hrecords
    have hnext := (checkedAdd_one hcommits).1
    have hsame := foldl_perform_commit batch.scope batch.operations m
    rw [show s.performAll batch.scopedOperations = _ from hperform, hcheck, ← h.commit, hnext]
    let m' : MemoryState :=
      { batch.operations.foldl (MemoryState.perform batch.scope) m with
        nextCommitVersion := m.nextCommitVersion + 1 }
    refine .inr ⟨m.nextCommitVersion, m', { s₁ with nextCommit := m.nextCommitVersion + 1 }, ?_,
      rfl, ⟨h₁.get, h₁.record, rfl⟩⟩
    simp only [hsame, mapError_ok, m']

def Admits (m : MemoryState) : StoreCommand → Prop
  | .commit scope edits => m.HasRoomFor (builtBatch scope edits)
  | _ => True

def Fits (m : MemoryState) : List StoreCommand → Prop
  | [] => True
  | c :: rest => m.Admits c ∧ (memoryBackend.step m c).2.Fits rest

theorem fits_append {m : MemoryState} {cs cs' : List StoreCommand} :
    m.Fits (cs ++ cs') ↔ m.Fits cs ∧ (memoryBackend.after m cs).Fits cs' := by
  induction cs generalizing m with
  | nil => exact iff_of_eq (true_and _).symm
  | cons c rest ih => rw [List.cons_append, Fits, Fits, ih, Backend.after, and_assoc]

end MemoryState

end Weaver
