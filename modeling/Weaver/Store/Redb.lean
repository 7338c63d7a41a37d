import Weaver.Store.Memory

/-!
# The state store in a database

`RedbStateStore` keeps its records in a table of byte strings that the database orders by their
bytes, and its counters in a table of metadata. The scope and the key of a record are encoded into
one byte string, and its version and value into another. The encoding of the keys keeps their order
(`compositeKey_strictMono`), so that the table is that of the store in memory under an encoding
(`Keeps`), and every command has the same outcome on both (`stores_interchangeable`).

The database is an ordered map of bytes with atomic transactions: a transaction that fails leaves it
as it was.
-/

namespace Weaver

open Checked Wire Versioned

/-! ## Encodings -/

def scopePrefixLen : ℕ := 33

def ScopeKind.toByte : ScopeKind → UInt8
  | .member => 0
  | .authority => 1

def scopePrefix (scope : StoreScope) : Bytes := scope.kind.toByte :: scope.networkId.asBytes.val

def compositeKey (scope : StoreScope) (key : StoreKey) : Bytes := scopePrefix scope ++ key.asBytes

def encodeValue (version : UInt64) (value : Bytes) : Bytes := be64 version ++ value

def decodeValue (value : Bytes) : Except StoreError VersionedBytes := do
  failIf (value.length < 8) (.backend "truncated redb record")
  return ⟨UInt64.ofNat (ofBe (value.take 8)), value.drop 8⟩

theorem decodeValue_encodeValue (version : UInt64) (value : Bytes) :
    decodeValue (encodeValue version value) = .ok ⟨version, value⟩ := by
  have hlength := be64_length version
  unfold decodeValue encodeValue
  rw [failIf_neg (by rw [List.length_append]; omega), ok_bind,
    List.take_left' hlength, List.drop_left' hlength, ofBe_be64]
  rfl

theorem scopePrefix_length (scope : StoreScope) : (scopePrefix scope).length = scopePrefixLen := by
  rw [scopePrefix, List.length_cons, scope.networkId.asBytes.property]
  rfl

theorem scopePrefix_strictMono : StrictMono scopePrefix := by
  intro a b h
  have hlex : toLex (a.kind, a.networkId.asBytes.val) < toLex (b.kind, b.networkId.asBytes.val) := h
  rw [Prod.Lex.toLex_lt_toLex] at hlex
  rw [scopePrefix, scopePrefix, List.cons_lt_cons_iff]
  rcases hlex with hkind | ⟨hkind, hbytes⟩
  · left
    have hrank : a.kind.rank < b.kind.rank := hkind
    cases ha : a.kind <;> cases hb : b.kind <;> rw [ha, hb] at hrank <;>
      first | decide | exact absurd hrank (by decide)
  · exact .inr ⟨congrArg ScopeKind.toByte hkind, hbytes⟩

theorem compositeKey_strictMono :
    StrictMono fun k : RecordKey => compositeKey (ofLex k).1 (ofLex k).2 := by
  intro a b hab
  have hlength : (scopePrefix (ofLex a).1).length = (scopePrefix (ofLex b).1).length := by
    rw [scopePrefix_length, scopePrefix_length]
  change compositeKey _ _ < compositeKey _ _
  rw [compositeKey, compositeKey, Sorted.append_lt_append_iff hlength]
  rcases Prod.Lex.lt_iff.mp hab with hscope | ⟨hscope, hkey⟩
  · exact .inl (scopePrefix_strictMono hscope)
  · exact .inr ⟨congrArg scopePrefix hscope, hkey⟩

theorem scopePrefix_prefix_iff (scope scope' : StoreScope) (key : StoreKey) :
    scopePrefix scope <+: compositeKey scope' key ↔ scope' = scope := by
  have hlength : (scopePrefix scope).length = (scopePrefix scope').length := by
    rw [scopePrefix_length, scopePrefix_length]
  rw [List.prefix_iff_eq_take, compositeKey, hlength, List.take_left]
  exact ⟨fun h => (scopePrefix_strictMono.injective h).symm, fun h => by rw [h]⟩

theorem drop_compositeKey (scope : StoreScope) (key : StoreKey) :
    (compositeKey scope key).drop scopePrefixLen = key.asBytes :=
  List.drop_left' (scopePrefix_length scope)

def keyEncoding : RecordKey ↪o Bytes := OrderEmbedding.ofStrictMono _ compositeKey_strictMono

def recordEncoding (record : VersionedBytes) : Bytes := encodeValue record.version record.bytes

/-! ## The database -/

def metaSchemaVersion : String := "schema_version"

def metaNextRecordVersion : String := "next_record_version"

def metaNextCommitVersion : String := "next_commit_version"

/-- The tables `RECORDS` and `META`. -/
structure Database where
  records : Sorted.Map Bytes Bytes
  metadata : Sorted.Map String UInt64

namespace Database

def create : Database := ⟨.empty, .empty⟩

/-- `RedbStateStore::read`. -/
def read (db : Database) (scope : StoreScope) (key : StoreKey) :
    Except StoreError (Option VersionedBytes) :=
  match db.records.get (compositeKey scope key) with
  | none => .ok none
  | some value => (decodeValue value).map some

/-- The loop of `RedbStateStore::scan_prefix`. -/
def scanEntries (scopeStart start : Bytes) :
    List (Bytes × Bytes) → Except StoreError (List StoredEntry)
  | [] => .ok []
  | (key, value) :: rest =>
    if scopeStart <+: key ∧ start <+: key.drop scopePrefixLen then do
      let key ← StoreKey.new (key.drop scopePrefixLen)
      let value ← decodeValue value
      let entries ← scanEntries scopeStart start rest
      return ⟨key, value⟩ :: entries
    else scanEntries scopeStart start rest

/-- `RedbStateStore::scan_prefix`. -/
def scanPrefix (db : Database) (scope : StoreScope) (start : Bytes) :
    Except StoreError (List StoredEntry) :=
  scanEntries (scopePrefix scope) start db.records.entries

def metadataValue (db : Database) (key : String) : Except StoreError UInt64 :=
  okOr (db.metadata.get key) (.backend ("missing metadata key " ++ key))

/-- The first loop of `commit_sync`: the expected versions. -/
def check (db : Database) (scope : StoreScope) :
    List (Operation StoreKey Bytes) → Except StoreError Unit
  | [] => .ok ()
  | op :: rest => do
    let record ← db.read scope op.key
    let actual := record.map Entry.version
    failIf (¬ op.expected.Holds actual) (.versionConflict op.key op.expected actual)
    db.check scope rest

/-- The second loop of `commit_sync`: the records, and the next version. -/
def performAll (scope : StoreScope) : Sorted.Map Bytes Bytes → UInt64 →
    List (Operation StoreKey Bytes) → Except StoreError (Sorted.Map Bytes Bytes × UInt64)
  | records, next, [] => .ok (records, next)
  | records, next, .put key value _ :: rest => do
    let records := records.insert (compositeKey scope key) (encodeValue next value)
    let next ← okOr (checkedAdd next 1) (.backend "record version overflow")
    performAll scope records next rest
  | records, next, .delete key _ :: rest =>
    performAll scope (records.erase (compositeKey scope key)) next rest

def commitSync (db : Database) (batch : AtomicBatch) : Except StoreError (UInt64 × Database) := do
  db.check batch.scope batch.operations
  let nextRecord ← db.metadataValue metaNextRecordVersion
  let commitVersion ← db.metadataValue metaNextCommitVersion
  let (records, nextRecord) ← performAll batch.scope db.records nextRecord batch.operations
  let nextCommit ← okOr (checkedAdd commitVersion 1) (.backend "commit version overflow")
  return (commitVersion,
    { records
      metadata := (db.metadata.insert metaNextRecordVersion nextRecord).insert
        metaNextCommitVersion nextCommit })

end Database

/-- `initialize`. -/
def Database.initialize (db : Database) : Except StoreError Database :=
  match db.metadata.get metaSchemaVersion with
  | some version => do
    failIf (currentSchemaVersion.toUInt64 < version)
      (.schemaTooNew version.toUInt32 currentSchemaVersion)
    return db
  | none =>
    .ok
      { db with
        metadata := ((db.metadata.insert metaSchemaVersion currentSchemaVersion.toUInt64).insert
          metaNextRecordVersion 1).insert metaNextCommitVersion 1 }

/-- `RedbStateStore::commit`. -/
def Database.commit (db : Database) (batch : AtomicBatch) : Except StoreError UInt64 × Database :=
  match db.commitSync batch with
  | .ok (version, db') => (.ok version, db')
  | .error e => (.error e, db)

/-- The file is closed, and opened with `RedbStateStore::open`. -/
def Database.reopen (db : Database) : Except StoreError Unit × Database :=
  match ( Database.initialize db) with
  | .ok db' => (.ok (), db')
  | .error e => (.error e, db)

/-- `RedbStateStore`. -/
def redbBackend : Backend Database where
  read := Database.read
  scanPrefix := Database.scanPrefix
  commit := Database.commit
  reopen := Database.reopen

/-! ## The table of the store in memory -/

namespace Database

structure Keeps (db : Database) (m : MemoryState) : Prop where
  records : db.records = m.records.map keyEncoding recordEncoding
  schema : db.metadata.get metaSchemaVersion = some currentSchemaVersion.toUInt64
  record : db.metadata.get metaNextRecordVersion = some m.nextRecordVersion
  commit : db.metadata.get metaNextCommitVersion = some m.nextCommitVersion

variable {db : Database} {m : MemoryState}

theorem keeps_create : ∃ db, Database.initialize create = .ok db ∧ db.Keeps .new :=
  ⟨_, rfl, rfl, by decide, by decide, by decide⟩

theorem Keeps.read (h : db.Keeps m) (scope : StoreScope) (key : StoreKey) :
    db.read scope key = m.read scope key := by
  have hget : db.records.get (compositeKey scope key) = (m.get scope key).map recordEncoding := by
    rw [h.records]
    exact Sorted.Map.get_map keyEncoding recordEncoding m.records (toLex (scope, key))
  rw [Database.read, MemoryState.read, hget]
  cases m.get scope key with
  | none => rfl
  | some record => exact congrArg (Except.map some) (decodeValue_encodeValue _ _)

theorem Keeps.check (h : db.Keeps m) (scope : StoreScope) (ops : List (Operation StoreKey Bytes)) :
    db.check scope ops = m.check scope ops := by
  induction ops with
  | nil => rfl
  | cons op rest ih =>
    rw [Database.check, h.read, ih]
    rfl

theorem scanEntries_map (scope : StoreScope) (start : Bytes)
    (entries : List (RecordKey × VersionedBytes)) :
    scanEntries (scopePrefix scope) start (entries.map (Prod.map keyEncoding recordEncoding)) =
      .ok ((entries.filter fun e =>
        (ofLex e.1).1 = scope ∧ start <+: (ofLex e.1).2.asBytes).map
          fun e => ⟨(ofLex e.1).2, e.2⟩) := by
  induction entries with
  | nil => rfl
  | cons e rest ih =>
    obtain ⟨k, record⟩ := e
    have hkey : keyEncoding k = compositeKey (ofLex k).1 (ofLex k).2 := rfl
    have hvalue : decodeValue (recordEncoding record) = .ok record := decodeValue_encodeValue _ _
    have hscope := scopePrefix_prefix_iff scope (ofLex k).1 (ofLex k).2
    rw [List.map_cons, Prod.map_apply, scanEntries, ih, hkey, drop_compositeKey,
      StoreKey.new_asBytes, hvalue]
    by_cases hmatch : (ofLex k).1 = scope ∧ start <+: (ofLex k).2.asBytes
    · rw [if_pos ⟨hscope.mpr hmatch.1, hmatch.2⟩, List.filter_cons_of_pos (by simpa using hmatch)]
      rfl
    · rw [if_neg fun h => hmatch ⟨hscope.mp h.1, h.2⟩,
        List.filter_cons_of_neg (by simpa using hmatch)]

theorem Keeps.scanPrefix (h : db.Keeps m) (scope : StoreScope) (start : Bytes) :
    db.scanPrefix scope start = m.scanPrefix scope start := by
  rw [Database.scanPrefix, h.records]
  exact scanEntries_map scope start m.records.entries

theorem performAll_map (scope : StoreScope) {m : MemoryState}
    {ops : List (Operation StoreKey Bytes)}
    (hroom : m.nextRecordVersion.toNat + putCount ops < 2^64) :
    performAll scope (m.records.map keyEncoding recordEncoding) m.nextRecordVersion ops =
      .ok ((ops.foldl (MemoryState.perform scope) m).records.map keyEncoding recordEncoding,
        (ops.foldl (MemoryState.perform scope) m).nextRecordVersion) := by
  induction ops generalizing m with
  | nil => rfl
  | cons op rest ih =>
    cases op with
    | put key value expected =>
      have hcount : putCount (.put key value expected :: rest) = putCount rest + 1 := rfl
      rw [hcount] at hroom
      obtain ⟨hnext, hval⟩ := checkedAdd_one (a := m.nextRecordVersion) (by omega)
      have hrest := ih (m := m.perform scope (.put key value expected)) (by
        change (m.nextRecordVersion + 1).toNat + _ < _
        omega)
      have hinsert : (m.perform scope (.put key value expected)).records.map keyEncoding
          recordEncoding = (m.records.map keyEncoding recordEncoding).insert
            (compositeKey scope key) (encodeValue m.nextRecordVersion value) :=
        Sorted.Map.map_insert keyEncoding recordEncoding m.records (toLex (scope, key)) _
      rw [List.foldl_cons, ← hrest, hinsert, performAll, hnext]
      rfl
    | delete key expected =>
      have hrest := ih (m := m.perform scope (.delete key expected)) hroom
      have herase : (m.perform scope (.delete key expected)).records.map keyEncoding
          recordEncoding = (m.records.map keyEncoding recordEncoding).erase
            (compositeKey scope key) :=
        Sorted.Map.map_erase keyEncoding recordEncoding m.records (toLex (scope, key))
      rw [List.foldl_cons, ← hrest, herase, performAll]
      rfl

theorem Keeps.commit_eq (h : db.Keeps m) {batch : AtomicBatch} (hroom : m.HasRoomFor batch) :
    (db.commit batch).1 = (m.commit batch).1 ∧
      (db.commit batch).2.Keeps (m.commit batch).2 := by
  have hcheck := h.check batch.scope batch.operations
  cases hm : m.check batch.scope batch.operations with
  | error e =>
    have hredb : db.commitSync batch = .error e := by
      unfold commitSync
      rw [hcheck, hm]
      rfl
    have hmemory : m.commit batch = (.error e, m) := by
      unfold MemoryState.commit
      rw [hm]
    rw [hmemory, Database.commit, hredb]
    exact ⟨rfl, h⟩
  | ok u =>
    obtain ⟨hrecords, hcommits⟩ := hroom hm
    have hnext := (checkedAdd_one hcommits).1
    have hperform := performAll_map batch.scope hrecords
    rw [← h.records] at hperform
    let m₁ := batch.operations.foldl (MemoryState.perform batch.scope) m
    have hsame : m₁.nextCommitVersion = m.nextCommitVersion :=
      MemoryState.foldl_perform_commit batch.scope batch.operations m
    have hmemory : m.commit batch =
        (.ok m.nextCommitVersion, { m₁ with nextCommitVersion := m.nextCommitVersion + 1 }) := by
      unfold MemoryState.commit
      rw [hm]
      simp only [← hsame, m₁]
    let db' : Database :=
      { records := m₁.records.map keyEncoding recordEncoding
        metadata := (db.metadata.insert metaNextRecordVersion m₁.nextRecordVersion).insert
          metaNextCommitVersion (m.nextCommitVersion + 1) }
    have hredb : db.commitSync batch = .ok (m.nextCommitVersion, db') := by
      unfold commitSync metadataValue
      rw [hcheck, hm, ok_bind, h.record, okOr_some, ok_bind, h.commit, okOr_some, ok_bind, hperform,
        ok_bind, hnext]
      rfl
    rw [hmemory, Database.commit, hredb]
    refine ⟨rfl, rfl, ?_, ?_, ?_⟩
    · rw [Sorted.Map.get_insert, if_neg (by decide), Sorted.Map.get_insert, if_neg (by decide)]
      exact h.schema
    · rw [Sorted.Map.get_insert, if_neg (by decide), Sorted.Map.get_insert, if_pos rfl]
    · rw [Sorted.Map.get_insert, if_pos rfl]

theorem Keeps.initialize_eq (h : db.Keeps m) : Database.initialize db = .ok db := by
  unfold Database.initialize
  rw [h.schema]
  rfl

theorem Keeps.step (h : db.Keeps m) {c : StoreCommand} (hadmits : m.Admits c) :
    (redbBackend.step db c).1 = (memoryBackend.step m c).1 ∧
      (redbBackend.step db c).2.Keeps (memoryBackend.step m c).2 := by
  cases c with
  | commit scope edits =>
    obtain ⟨hresult, hkeeps⟩ := h.commit_eq hadmits
    exact ⟨congrArg (StoreOutcome.committed _) hresult, hkeeps⟩
  | read scope key => exact ⟨congrArg StoreOutcome.record (h.read scope key), h⟩
  | scan scope start => exact ⟨congrArg StoreOutcome.entries (h.scanPrefix scope start), h⟩
  | reopen =>
    have hreopen : redbBackend.reopen db = (.ok (), db) := by
      change db.reopen = _
      rw [Database.reopen, h.initialize_eq]
    rw [Backend.step, hreopen]
    exact ⟨rfl, h⟩

theorem Keeps.run (h : db.Keeps m) {cs : List StoreCommand} (hfits : m.Fits cs) :
    redbBackend.log db cs = memoryBackend.log m cs ∧
      (redbBackend.after db cs).Keeps (memoryBackend.after m cs) := by
  induction cs generalizing db m with
  | nil => exact ⟨rfl, h⟩
  | cons c rest ih =>
    obtain ⟨hadmits, hrest⟩ := hfits
    obtain ⟨houtcome, hkeeps⟩ := h.step hadmits
    obtain ⟨hlog, hafter⟩ := ih hkeeps hrest
    refine ⟨?_, hafter⟩
    rw [Backend.log, Backend.log, houtcome, hlog]

end Database

/-- The two state stores are interchangeable. A new file is opened successfully, and any commands in
which batches are built and committed, records are read and scanned, and the database is closed and
opened again, have the same outcomes on the database as on a new store in memory, as long as the
counters of versions do not overflow. -/
theorem stores_interchangeable {cs : List StoreCommand} (hfits : MemoryState.new.Fits cs) :
    ∃ db, Database.initialize Database.create = .ok db ∧
      redbBackend.log db cs = memoryBackend.log MemoryState.new cs := by
  obtain ⟨db, hopen, hkeeps⟩ := Database.keeps_create
  exact ⟨db, hopen, (hkeeps.run hfits).1⟩

end Weaver

namespace Weaver.Sample

open Checked Wire Versioned

def shortKey (b : UInt8) : StoreKey := ⟨[b], Nat.one_pos, by rw [List.length_singleton]; decide⟩

def bothScopes : StoreScope × StoreScope := (.member ⟨zeroes 32⟩, .authority ⟨zeroes 32⟩)

/-- Two records are written in one scope and one in the other. After the store was opened again, one
of them is replaced and another is deleted, a second replacement conflicts, and what is left is
scanned. -/
def storeCommands : List StoreCommand :=
  [.commit bothScopes.2 [.put (shortKey 2) [1] .missing, .put (shortKey 1) [2] .missing],
    .commit bothScopes.1 [.put (shortKey 1) [3] .any, .put (shortKey 1) [4] .any],
    .reopen,
    .commit bothScopes.2 [.put (shortKey 2) [5] (.exact 1), .delete (shortKey 1) (.exact 2)],
    .commit bothScopes.2 [.put (shortKey 2) [6] (.exact 1)],
    .scan bothScopes.2 [], .read bothScopes.1 (shortKey 1)]

theorem storeCommands_fit : MemoryState.new.Fits storeCommands :=
  ⟨fun _ => by decide +kernel, fun _ => by decide +kernel, trivial, fun _ => by decide +kernel,
    fun _ => by decide +kernel, trivial, trivial, trivial⟩

/-- The outcomes of the sample commands on both stores. -/
theorem stores_interchangeable_sample : ∃ db, Database.initialize Database.create = .ok db ∧
    (redbBackend.log db storeCommands).map Prod.snd =
      [.committed [.ok (), .ok ()] (.ok 1),
        .committed [.ok (), .error (.duplicateBatchKey (shortKey 1))] (.ok 2), .reopened (.ok ()),
        .committed [.ok (), .ok ()] (.ok 3),
        .committed [.ok ()] (.error (.versionConflict (shortKey 2) (.exact 1) (some 4))),
        .entries (.ok [⟨shortKey 2, ⟨4, [5]⟩⟩]), .record (.ok (some ⟨3, [3]⟩))] := by
  obtain ⟨db, hopen, hlog⟩ := stores_interchangeable storeCommands_fit
  refine ⟨db, hopen, ?_⟩
  rw [hlog]
  decide +kernel

end Weaver.Sample
