import Weaver.Lib.Refine
import Weaver.Store.SecretFile

/-!
# The stores of a data directory

A data directory holds a database with the records of the state store, and a directory with the
files of the secret store. `DataDirectory.Holds` relates it to the stores that it holds. Every
request of a store program is carried out on the files (`DataDirectory.carry`) with the answer that
the stores give, and the directory then holds what the stores become (`DataDirectory.carry_run`), so
that a store program runs on the directory as it runs on the stores.

A database file holds the records as a whole: `Weaver.Store.Redb` is about its tables. Transactions
are atomic, and durable when they are committed.
-/

namespace Weaver

open Checked Wire Versioned Program FileSystem

def storeBackend (_ : IoError) : StoreError := .backend "I/O error"

namespace RedbStateStore

/-- `RedbStateStore::open`. -/
def openPath (path : FilePath) : FileTask StoreError Unit := do
  change storeBackend (.createDirAll path.tail)
  change storeBackend (.openDatabase path Versioned.Store.empty)

/-- `RedbStateStore::read`. -/
def read (path : FilePath) (scope : StoreScope) (key : StoreKey) :
    FileTask StoreError (Option VersionedBytes) := do
  let state ← load storeBackend path
  return Store.get state (scope, key)

/-- `RedbStateStore::scan_prefix`. -/
def scanPrefix (path : FilePath) (scope : StoreScope) (start : Bytes) :
    FileTask StoreError (List StoredEntry) := do
  let state ← load storeBackend path
  return StateStore.scanPrefix state scope start

/-- `RedbStateStore::commit`. -/
def commit (path : FilePath) (batch : AtomicBatch) : FileTask StoreError UInt64 := do
  let state ← load storeBackend path
  let (version, state') ← Task.lift (StateStore.commitBatch state batch)
  change storeBackend (.saveDatabase path state')
  return version

variable {Fails : FileSystem.Request String StateStore → Prop} {Calm : Prop} {fs : DataFiles}

theorem openPath_yields {name : String} {parent : FilePath} (hparent : fs.node parent = some .dir)
    (habsent : fs.node (name :: parent) = none) (hsafe : Calm → ∀ r, ¬ Fails r) :
    Yields (faulty Fails) Calm (openPath (name :: parent))
      (fun _ fs' => fs'.node = Function.update fs.node (name :: parent)
        (some (.file (.database Versioned.Store.empty) true))) fs := by
  have hdirs : Change.apply fs (.createDirAll parent) = .ok fs := Files.createDirAll_of_dir hparent
  obtain ⟨fs₁, hcreate⟩ := Files.exists_create
    (.file (.database Versioned.Store.empty) true) hparent habsent
  have hopen : Change.apply fs (.openDatabase (name :: parent) Versioned.Store.empty) =
      .ok fs₁ := by
    change fs.openDatabase (name :: parent) Versioned.Store.empty = .ok fs₁
    unfold Files.openDatabase
    rw [habsent]
    exact hcreate
  refine Yields.andThen (change_yields fun hcalm => ⟨hsafe hcalm _, fs, hdirs⟩) ?_
  intro _ fs' hfs'
  obtain rfl := Except.ok.inj (hdirs.symm.trans hfs')
  refine (change_yields fun hcalm => ⟨hsafe hcalm _, fs₁, hopen⟩).weaken id ?_
  intro _ fs' hfs'
  obtain rfl := Except.ok.inj (hopen.symm.trans hfs')
  exact (Files.create_eq_ok.mp hcreate).2.2

theorem commit_yields {path : FilePath} {state : StateStore} {synced : Bool}
    (hfile : fs.node path = some (.file (.database state) synced)) {batch : AtomicBatch}
    (hsafe : Calm → ∀ r, ¬ Fails r) (hcommit : Calm → ∃ result, state.commitBatch batch = .ok result) :
    Yields (faulty Fails) Calm (commit path batch)
      (fun version fs' => ∃ state', state.commitBatch batch = .ok (version, state') ∧
        fs'.node = Function.update fs.node path (some (.file (.database state') true))) fs := by
  refine Yields.andThen (load_yields hfile fun hcalm => hsafe hcalm _) ?_
  rintro loaded fs' ⟨rfl, rfl⟩
  refine Yields.lift_andThen hcommit ?_
  intro result hresult
  obtain ⟨version, state'⟩ := result
  refine Yields.andThen (change_yields fun hcalm => ⟨hsafe hcalm _, Files.exists_modify hfile rfl⟩) ?_
  intro _ fs₁ hfs₁
  obtain ⟨_, _, -, hnode⟩ := Files.saveDatabase_eq_ok.mp hfs₁
  exact Yields.of_pure ⟨state', hresult, hnode⟩

end RedbStateStore

structure DataDirectory where
  path : FilePath
  masterKey : Bytes32

namespace DataDirectory

def secrets (dir : DataDirectory) : EncryptedFileSecretStore :=
  ⟨"secrets" :: dir.path, dir.masterKey⟩

def statePath (dir : DataDirectory) : FilePath := "state.redb" :: dir.path

def manifestPath (dir : DataDirectory) : FilePath := "authority.manifest" :: dir.path

variable [FileCipher]

def carry (dir : DataDirectory) (draws : SecretId → SecretDraws) :
    (r : StoreRequest) → Prog fileInterface r.Answer
  | .read scope key => RedbStateStore.read dir.statePath scope key
  | .commit batch => RedbStateStore.commit dir.statePath batch
  | .scanPrefix scope start => RedbStateStore.scanPrefix dir.statePath scope start
  | .openSecret id => dir.secrets.openSync id
  | .sealSecret id plaintext => dir.secrets.sealSync (draws id) id plaintext
  | .deleteSecret id => dir.secrets.deleteSync id

structure Holds (dir : DataDirectory) (fs : DataFiles) (w : Stores) : Prop where
  secrets : dir.secrets.Keeps fs w.secrets
  state : fs.node dir.statePath = some (.file (.database w.state) true)

variable {dir : DataDirectory} {fs fs' : DataFiles} {w : Stores}

omit [FileCipher] in
theorem statePath_not_below (dir : DataDirectory) : ¬ dir.secrets.directory <:+ dir.statePath := by
  intro h
  have heq := h.eq_of_length rfl
  exact absurd (List.cons.inj heq).1 (by decide)

omit [FileCipher] in
theorem statePath_ne_pathFor (dir : DataDirectory) (id : SecretId) :
    dir.statePath ≠ dir.secrets.pathFor id := fun h =>
  dir.statePath_not_below (h ▸ dir.secrets.directory_suffix id)

omit [FileCipher] in
theorem statePath_ne_directory (dir : DataDirectory) :
    dir.statePath ≠ dir.secrets.directory := fun h =>
  dir.statePath_not_below (h ▸ List.suffix_rfl)

theorem node_path {s : SecretStore} (h : dir.secrets.Keeps fs s) :
    fs.node dir.path = some .dir := by
  have hdirectory : fs.node ("secrets" :: dir.path) = some .dir := h.directory
  exact fs.above "secrets" dir.path (by rw [hdirectory]; rfl)

theorem Holds.congr (h : dir.Holds fs w)
    (hsame : ∀ x, x = dir.statePath ∨ dir.secrets.directory <:+ x → fs'.node x = fs.node x) :
    dir.Holds fs' w := by
  refine ⟨h.secrets.congr ?_ ?_, ?_⟩
  · rw [hsame _ (.inr List.suffix_rfl)]
    exact h.secrets.directory
  · intro id
    exact hsame _ (.inr (dir.secrets.directory_suffix id))
  · rw [hsame _ (.inl rfl)]
    exact h.state

theorem Holds.crash (h : dir.Holds fs w) (hcrash : fs.Crash fs') : dir.Holds fs' w := by
  refine ⟨h.secrets.crash hcrash, ?_⟩
  rcases hcrash dir.statePath with hsame | ⟨content, _, _, hfile, -⟩
  · rw [hsame]
    exact h.state
  · exact absurd (hfile.symm.trans h.state) (by simp)

/-! ## Requests on the files -/

theorem openSync_run (h : dir.Holds fs w) (id : SecretId) :
    (dir.secrets.openSync id).run FileSystem.serve fs = (w.secrets.open id, fs) := by
  have hread : (tryRead (dir.secrets.pathFor id) : FileTask SecretStoreError _).run
      FileSystem.serve fs = (.ok (fs.read (dir.secrets.pathFor id)), fs) := rfl
  unfold EncryptedFileSecretStore.openSync SecretStore.open
  rw [Task.run_bind, hread]
  unfold Files.read
  cases hlookup : w.secrets.secrets.lookup id with
  | none =>
    rw [h.secrets.absent id hlookup]
    rfl
  | some secret =>
    obtain ⟨bytes, hfile, hdecode⟩ := h.secrets.secret id secret hlookup
    rw [hfile]
    change (dir.secrets.decode id bytes, fs) = _
    rw [hdecode]
    rfl

omit [FileCipher] in
theorem commit_run (h : fs.node dir.statePath = some (.file (.database w.state) true))
    (batch : AtomicBatch) :
    ∃ fs', (RedbStateStore.commit dir.statePath batch).run FileSystem.serve fs =
        ((w.commit batch).1, fs') ∧
      fs'.node = Function.update fs.node dir.statePath
        (some (.file (.database (w.commit batch).2.state) true)) := by
  unfold RedbStateStore.commit
  rw [Task.run_bind, load_run h]
  dsimp only
  cases hcommit : w.state.commitBatch batch with
  | error e =>
    rw [Stores.commit_of_error hcommit]
    refine ⟨fs, rfl, ?_⟩
    rw [← h, Function.update_eq_self]
  | ok result =>
    obtain ⟨version, state⟩ := result
    rw [Stores.commit_of_ok hcommit]
    obtain ⟨fs', hsave⟩ : ∃ fs', fs.saveDatabase dir.statePath state = .ok fs' :=
      Files.exists_modify h rfl
    obtain ⟨_, _, -, hnode⟩ := Files.saveDatabase_eq_ok.mp hsave
    refine ⟨fs', ?_, hnode⟩
    rw [Task.run_lift_ok_bind, Task.run_bind, change_run (show Change.apply fs (.saveDatabase dir.statePath state) = .ok fs' from hsave)]
    rfl

theorem deleteSync_run (h : dir.Holds fs w) (id : SecretId) :
    ∃ fs', (dir.secrets.deleteSync id).run FileSystem.serve fs = (.ok (), fs') ∧
      dir.Holds fs' { w with secrets := w.secrets.delete id } := by
  unfold EncryptedFileSecretStore.deleteSync
  cases hlookup : w.secrets.secrets.lookup id with
  | none =>
    have habsent := h.secrets.absent id hlookup
    have hremove : Change.apply fs (.removeFile (dir.secrets.pathFor id)) = .error .notFound :=
      Files.removeFile_of_absent habsent
    rw [Task.run_bind, tryChange_run_of_error hremove]
    exact ⟨fs, rfl, h.secrets.delete h.secrets.directory habsent fun _ _ => rfl, h.state⟩
  | some secret =>
    obtain ⟨bytes, hfile, -⟩ := h.secrets.secret id secret hlookup
    obtain ⟨fs', hremove⟩ := Files.exists_removeFile hfile
    obtain ⟨-, hnode⟩ := Files.removeFile_eq_ok.mp hremove
    have hdirectory : fs'.node dir.secrets.directory = some .dir := by
      rw [hnode, Function.update_of_ne (dir.secrets.directory_ne_pathFor id)]
      exact h.secrets.directory
    have hsync : Change.apply fs' (.syncDir dir.secrets.directory) = .ok fs' :=
      Files.syncDir_eq_ok.mpr ⟨hdirectory, rfl⟩
    rw [Task.run_bind, tryChange_run_of_ok
      (show Change.apply fs (.removeFile (dir.secrets.pathFor id)) = .ok fs' from hremove)]
    refine ⟨fs', change_run hsync, h.secrets.delete hdirectory ?_ ?_, ?_⟩
    · rw [hnode, Function.update_self]
    · intro id' hid
      rw [hnode, Function.update_of_ne fun heq =>
        hid (EncryptedFileSecretStore.pathFor_injective heq)]
    · rw [hnode, Function.update_of_ne (dir.statePath_ne_pathFor id)]
      exact h.state

def SealsNothing (r : StoreRequest) : Prop := ∀ id plaintext, r ≠ .sealSecret id plaintext

theorem carry_run (h : dir.Holds fs w) (draws : SecretId → SecretDraws) {r : StoreRequest}
    (hr : SealsNothing r) :
    ((dir.carry draws r).run FileSystem.serve fs).1 = (serve w r).1 ∧
      dir.Holds ((dir.carry draws r).run FileSystem.serve fs).2 (serve w r).2 := by
  cases r with
  | read scope key =>
    have hrun : (RedbStateStore.read dir.statePath scope key).run FileSystem.serve fs =
        (.ok (w.record scope key), fs) := by
      unfold RedbStateStore.read
      rw [Task.run_bind, load_run h.state]
      rfl
    have hrun' : (dir.carry draws (.read scope key)).run FileSystem.serve fs = _ := hrun
    rw [hrun']
    exact ⟨rfl, h⟩
  | commit batch =>
    obtain ⟨fs', hrun, hnode⟩ := commit_run h.state batch
    have hrun' : (dir.carry draws (.commit batch)).run FileSystem.serve fs = _ := hrun
    have hsecrets : (w.commit batch).2.secrets = w.secrets := by
      unfold Stores.commit
      split <;> rfl
    rw [hrun']
    refine ⟨rfl, ?_, ?_⟩
    · change dir.secrets.Keeps fs' (w.commit batch).2.secrets
      rw [hsecrets]
      refine h.secrets.congr ?_ ?_
      · rw [hnode, Function.update_of_ne dir.statePath_ne_directory.symm]
        exact h.secrets.directory
      · intro id
        rw [hnode, Function.update_of_ne (dir.statePath_ne_pathFor id).symm]
    · rw [hnode, Function.update_self]
      rfl
  | scanPrefix scope start =>
    have hrun : (RedbStateStore.scanPrefix dir.statePath scope start).run FileSystem.serve fs =
        (.ok (w.state.scanPrefix scope start), fs) := by
      unfold RedbStateStore.scanPrefix
      rw [Task.run_bind, load_run h.state]
      rfl
    have hrun' : (dir.carry draws (.scanPrefix scope start)).run FileSystem.serve fs = _ := hrun
    rw [hrun']
    exact ⟨rfl, h⟩
  | openSecret id =>
    have hrun' : (dir.carry draws (.openSecret id)).run FileSystem.serve fs = _ :=
      openSync_run h id
    rw [hrun']
    exact ⟨rfl, h⟩
  | sealSecret id plaintext => exact absurd rfl (hr id plaintext)
  | deleteSecret id =>
    obtain ⟨fs', hrun, hholds⟩ := deleteSync_run h id
    have hrun' : (dir.carry draws (.deleteSecret id)).run FileSystem.serve fs = _ := hrun
    rw [hrun']
    exact ⟨rfl, hholds⟩

theorem run_via {α : Type} (h : dir.Holds fs w) (draws : SecretId → SecretDraws)
    {p : Prog storeInterface α} (hp : p.Only SealsNothing) :
    ((p.via (dir.carry draws)).run FileSystem.serve fs).1 = (p.run serve w).1 ∧
      dir.Holds ((p.via (dir.carry draws)).run FileSystem.serve fs).2 (p.run serve w).2 :=
  Prog.run_via (R := fun fs w => dir.Holds fs w)
    (fun _ hr _ _ hholds => carry_run hholds draws hr) hp h

end DataDirectory

end Weaver
