import Weaver.Authority.Initialize
import Weaver.Store.DataDirectory

/-!
# Initializing an authority on files

`Authority::initialize` fills a new directory beside the data directory and renames it when it is
complete: the secrets, the database, the manifest, and last, outside of the directory, the key of the
root. What it leaves there is what the store program `initializeStaging` leaves in the stores
(`initializeStagingAt_refines`). A step that fails ends it, and the directory is removed.

Paths are absolute, without links and without `.` and `..`.
-/

namespace Weaver

open Checked Wire Program FileSystem

/-! ## The program -/

/-- `AuthorityInit`, with its paths and its master key. -/
structure FileAuthorityInit extends AuthorityInit where
  dataDir : FilePath
  masterKey : Bytes32
  recoveryRootOut : Option FilePath

/-- What the initialization draws besides the keys: the name of the staging directory, and what
sealing each secret draws. -/
structure StagingDraws where
  name : Option (BytesN 12)
  onlineAdmin : SecretDraws
  memberSigning : SecretDraws
  memberEncryption : SecretDraws
  endpoint : SecretDraws

def ioError (_ : IoError) : AuthorityError := .io "I/O error"

def stagingName (name : String) (random : BytesN 12) : String :=
  "." ++ name ++ ".initializing-" ++ hexEncode random.val

def stagingPath (target : FilePath) (random : Option (BytesN 12)) :
    Except AuthorityError FilePath :=
  match target with
  | [] => .error .invalidDataDirectory
  | name :: parent => do
    let random ← okOr random (.io "randomness unavailable")
    return stagingName name random :: parent

def writeManifest (path : FilePath) (m : Manifest) : FileTask AuthorityError Unit := do
  change ioError (.createNew path)
  writeAll ioError path
    [manifestMagic, m.networkId.asBytes.val, m.rootPublicKey.val, m.genesisHash.val]
  Task.lift (failIf (2^16 ≤ m.adminCertificate.length) .corruptState)
  writeAll ioError path [be16 (UInt16.ofNat m.adminCertificate.length), m.adminCertificate]
  change ioError (.syncFile path)

def recoveryRootMagic : Bytes := utf8 "WVRROOT\x00\x01"

def writeRecoveryRoot (path : FilePath) (recoveryRoot : Bytes32) :
    FileTask AuthorityError Unit :=
  match path with
  | [] => Task.lift (.error .invalidDataDirectory)
  | _ :: parent => do
    change ioError (.createDirAll parent)
    writeNew ioError path [recoveryRootMagic, recoveryRoot.val]
    change ioError (.syncDir parent)

def exportRecoveryRoot (out : Option FilePath) (recoveryRoot : Bytes32) :
    FileTask AuthorityError Unit :=
  match out with
  | some path => writeRecoveryRoot path recoveryRoot
  | none => pure ()

variable [Crypto] [FileCipher]

/-- `seal_secret`, in the files of a directory. -/
def sealSecretAt (dir : DataDirectory) (draws : SecretDraws) (networkId : NetworkId)
    (label : String) (value : Bytes) : FileTask AuthorityError Unit :=
  (dir.secrets.sealSync draws (secretId networkId label) value).mapError .secret

/-- `initialize_staging`. -/
def initializeStagingAt (staging : DataDirectory) (options : AuthorityInit)
    (random : InitRandomness) (draws : StagingDraws) :
    FileTask AuthorityError InitializedAuthority := do
  let genesis ← Task.lift (planGenesis options random)
  let networkId := genesis.root.public.networkId
  let head : ConfigHead := ⟨0, 0, genesis.envelope.envelopeHash⟩
  staging.secrets.openDirectory.mapError .secret
  sealSecretAt staging draws.onlineAdmin networkId "online-admin" genesis.onlineAdmin.toBytes.val
  sealSecretAt staging draws.memberSigning networkId "member-signing"
    genesis.memberSigning.toBytes.val
  sealSecretAt staging draws.memberEncryption networkId "member-encryption"
    random.memberEncryption.secretBytes.val
  sealSecretAt staging draws.endpoint networkId "endpoint" random.endpoint.val
  (RedbStateStore.openPath staging.statePath).mapError .store
  let batch ← Task.lift ((genesisBatch networkId genesis.envelope.toBytes head).mapError .store)
  let _ ← (RedbStateStore.commit staging.statePath batch).mapError .store
  writeManifest staging.manifestPath
    { networkId, rootPublicKey := genesis.root.publicBytes, genesisHash := head.hash,
      adminCertificate := genesis.adminCertificate.toBytes }
  return { status :=
             { networkId, rootPublicKey := genesis.root.publicBytes, head,
               relayUrl := options.relayUrl }
           recoveryRoot := genesis.root.toBytes }

omit [Crypto] [FileCipher] in
/-- What `Authority::initialize` does when the staging directory is complete. -/
def finalizeStaging (staging : FilePath) (options : FileAuthorityInit) (recoveryRoot : Bytes32) :
    FileTask AuthorityError Unit := do
  exportRecoveryRoot options.recoveryRootOut recoveryRoot
  change ioError (.syncDir staging)
  change ioError (.rename staging options.dataDir)
  change ioError (.syncDir options.dataDir.tail)

/-- `Authority::initialize`: whichever step in the staging directory or after it fails, the
directory is removed. -/
def Authority.initializeAt (options : FileAuthorityInit) (random : InitRandomness)
    (draws : StagingDraws) : FileTask AuthorityError InitializedAuthority := do
  Task.lift (validateInit options.toAuthorityInit)
  let found ← present options.dataDir
  Task.lift (failIf (found = true) .alreadyInitialized)
  Task.lift (failIf (options.dataDir = []) .invalidDataDirectory)
  change ioError (.createDirAll options.dataDir.tail)
  let staging ← Task.lift (stagingPath options.dataDir draws.name)
  change ioError (.createDir staging)
  Task.onError (do
    let initialized ← initializeStagingAt ⟨staging, options.masterKey⟩ options.toAuthorityInit
      random draws
    finalizeStaging staging options initialized.recoveryRoot
    return initialized) (.change (.removeDirAll staging))

/-! ## What the staging directory holds -/

structure DataDirectory.Complete (dir : DataDirectory) (fs : DataFiles) (manifest : Bytes)
    (w : Stores) : Prop where
  stores : dir.Holds fs w
  manifest : fs.node dir.manifestPath = some (.file (.bytes manifest) true)

omit [Crypto] [FileCipher] in
theorem DataDirectory.manifestPath_not_below (dir : DataDirectory) :
    ¬ dir.secrets.directory <:+ dir.manifestPath := by
  intro h
  have heq := h.eq_of_length rfl
  exact absurd (List.cons.inj heq).1 (by decide)

omit [Crypto] [FileCipher] in
theorem DataDirectory.manifestPath_ne_statePath (dir : DataDirectory) :
    dir.manifestPath ≠ dir.statePath := by
  intro h
  exact absurd (List.cons.inj h).1 (by decide)

section Complete

variable {dir : DataDirectory} {fs fs' : DataFiles} {manifest : Bytes} {w : Stores}

omit [Crypto] in
theorem DataDirectory.Complete.congr (h : dir.Complete fs manifest w)
    (hsame : ∀ x, dir.path <:+ x → fs'.node x = fs.node x) : dir.Complete fs' manifest w := by
  refine ⟨h.stores.congr ?_, ?_⟩
  · rintro x (rfl | hx)
    · exact hsame _ (List.suffix_cons _ _)
    · exact hsame _ ((List.suffix_cons _ _).trans hx)
  · exact (hsame _ (List.suffix_cons _ _)).trans h.manifest

omit [Crypto] in
theorem DataDirectory.Complete.crash (h : dir.Complete fs manifest w) (hcrash : fs.Crash fs') :
    dir.Complete fs' manifest w := by
  refine ⟨h.stores.crash hcrash, ?_⟩
  rcases hcrash dir.manifestPath with hsame | ⟨_, _, _, hfile, -⟩
  · rw [hsame]
    exact h.manifest
  · exact absurd (hfile.symm.trans h.manifest) (by simp)

omit [Crypto] in
theorem DataDirectory.Complete.rename {p q : FilePath} {key : Bytes32}
    (h : DataDirectory.Complete ⟨p, key⟩ fs manifest w) (hrename : fs.rename p q = .ok fs') :
    DataDirectory.Complete ⟨q, key⟩ fs' manifest w := by
  obtain ⟨-, hmoved, -, -⟩ := Files.rename_eq_ok.mp hrename
  refine ⟨⟨⟨?_, ?_, ?_⟩, ?_⟩, ?_⟩
  · exact (hmoved ["secrets"]).trans h.stores.secrets.directory
  · intro id secret hlookup
    obtain ⟨bytes, hfile, hdecode⟩ := h.stores.secrets.secret id secret hlookup
    exact ⟨bytes, (hmoved [hexEncode id.val ++ ".wvs", "secrets"]).trans hfile, hdecode⟩
  · intro id hlookup
    exact (hmoved [hexEncode id.val ++ ".wvs", "secrets"]).trans
      (h.stores.secrets.absent id hlookup)
  · exact (hmoved ["state.redb"]).trans h.stores.state
  · exact (hmoved ["authority.manifest"]).trans h.manifest

end Complete

section Refinement

variable {Fails : FileSystem.Request String StateStore → Prop} {Calm : Prop}
  {dir : DataDirectory} {fs fs' : DataFiles} {w : Stores}

structure Filling (Calm : Prop) (dir : DataDirectory) (fs : DataFiles) (w : Stores) : Prop where
  secrets : dir.secrets.Keeps fs w.secrets
  state : fs.node dir.statePath = none ∧ w.state = Versioned.Store.empty
  manifest : fs.node dir.manifestPath = none
  clean : Calm → ∀ suffix, fs.node (dir.secrets.tempPath suffix) = none

theorem sealSecretAt_refines (h : Filling Calm dir fs w) {draws : SecretDraws}
    (hsafe : Calm → ∀ r, ¬ Fails r)
    (hdraws : Calm → draws.nonce.isSome = true ∧ draws.suffix.isSome = true)
    (networkId : NetworkId) (label : String) (value : Bytes32) :
    Refines (faulty Fails) Calm serve (sealSecretAt dir draws networkId label value.val)
      (sealSecret networkId label value.val) (fun _ _ fs' w' => Filling Calm dir fs' w') fs w := by
  have hrun : (sealSecret networkId label value.val).run serve w =
      ((w.secrets.seal (secretId networkId label) value.val).1.mapError .secret,
        { w with secrets := (w.secrets.seal (secretId networkId label) value.val).2 }) := rfl
  have hlength : value.val.length ≤ 2^36 := by
    rw [value.property]
    decide
  have hok : (∃ b w', (sealSecret networkId label value.val).run serve w = (.ok b, w')) →
      (w.secrets.seal (secretId networkId label) value.val).1 = .ok () := by
    rintro ⟨b, w', hb⟩
    rw [hrun] at hb
    exact mapError_eq_ok.mp (Prod.mk.inj hb).1
  have hframe := dir.secrets.sealSync_only draws (secretId networkId label) value.val
  refine Yields.weaken (((EncryptedFileSecretStore.sealSync_yields h.secrets
    (fun hcalm => hsafe hcalm.1) (fun hcalm => hdraws hcalm.1) hlength
    (fun hcalm => h.clean hcalm.1) fun hcalm => hok hcalm.2).keeping
      (always_below hframe)).mapError) (fun hcalm => hcalm) ?_
  rintro _ fs' ⟨⟨hsealed, hkeeps, hclean⟩, hsame⟩
  have hrun' : (sealSecret networkId label value.val).run serve w =
      (.ok (), { w with secrets := (w.secrets.seal (secretId networkId label) value.val).2 }) := by
    rw [hrun, hsealed]
    rfl
  refine ⟨(), _, hrun', hkeeps, ?_, ?_, ?_⟩
  · rw [hsame _ dir.statePath_not_below]
    exact h.state
  · rw [hsame _ dir.manifestPath_not_below]
    exact h.manifest
  · exact fun hcalm => hclean ⟨hcalm, _, _, hrun'⟩

omit [Crypto] [FileCipher] in
theorem writeManifest_refines {name : String} {parent : FilePath}
    (hparent : fs.node parent = some .dir) (habsent : fs.node (name :: parent) = none)
    (hsafe : Calm → ∀ r, ¬ Fails r) (m : Manifest) :
    Refines (faulty Fails) Calm serve (writeManifest (name :: parent) m)
      (Task.lift m.toBytes : StoreTask AuthorityError Bytes)
      (fun _ bytes fs' w' => w' = w ∧ fs'.node = Function.update fs.node (name :: parent)
        (some (.file (.bytes bytes) true))) fs w := by
  have hroom := Files.exists_create (.file (.bytes []) false) hparent habsent
  refine Yields.andThen (change_yields fun hcalm => ⟨hsafe hcalm.1 _, hroom⟩) ?_
  intro _ fs₁ hfs₁
  have hcreate : fs.create (.file (.bytes []) false) (name :: parent) = .ok fs₁ := hfs₁
  obtain ⟨-, -, hnode₁⟩ := Files.create_eq_ok.mp hcreate
  have hfile₁ : fs₁.node (name :: parent) = some (.file (.bytes []) false) := by
    rw [hnode₁, Function.update_self]
  refine Yields.andThen (writeAll_yields (fun hcalm _ => hsafe hcalm.1 _) hfile₁) ?_
  rintro _ fs₂ ⟨synced, hnode₂⟩
  refine Yields.lift_andThen ?_ ?_
  · -- the manifest has bytes only when the certificate fits
    rintro ⟨-, bytes, w', hbytes⟩
    obtain ⟨u, hfits, -⟩ := bind_eq_ok.mp (Prod.mk.inj hbytes).1
    exact ⟨u, hfits⟩
  intro u hfits
  have hbytes : m.toBytes = .ok (manifestMagic ++ m.networkId.asBytes.val ++ m.rootPublicKey.val ++
      m.genesisHash.val ++ be16 (UInt16.ofNat m.adminCertificate.length) ++
      m.adminCertificate) := by
    unfold Manifest.toBytes
    rw [hfits]
    rfl
  have hfile₂ := congrFun hnode₂ (name :: parent)
  rw [Function.update_self] at hfile₂
  refine Yields.andThen (writeAll_yields (fun hcalm _ => hsafe hcalm.1 _) hfile₂) ?_
  rintro _ fs₃ ⟨synced', hnode₃⟩
  have hfile₃ := congrFun hnode₃ (name :: parent)
  rw [Function.update_self] at hfile₃
  refine Yields.weaken (change_yields ?_) (fun hcalm => hcalm) ?_
  · intro hcalm
    exact ⟨hsafe hcalm.1 _, Files.exists_syncFile hfile₃⟩
  intro _ fs₄ hfs₄
  obtain ⟨content, _, hfile₄, hnode₄⟩ := Files.syncFile_eq_ok.mp hfs₄
  obtain ⟨rfl, rfl⟩ := Node.file.inj (Option.some.inj (hfile₄.symm.trans hfile₃))
  refine ⟨_, w, congrArg (fun r => (r, w)) hbytes, rfl, ?_⟩
  rw [hnode₄, hnode₃, hnode₂, hnode₁, Function.update_idem, Function.update_idem,
    Function.update_idem]
  simp

omit [Crypto] in
theorem commitAt_refines (h : dir.Holds fs w) (hsafe : Calm → ∀ r, ¬ Fails r)
    (batch : AtomicBatch) :
    Refines (faulty Fails) Calm serve
      ((RedbStateStore.commit dir.statePath batch).mapError AuthorityError.store)
      (commitRecords batch) (fun _ _ fs' w' => dir.Holds fs' w' ∧
        ∀ x, x ≠ dir.statePath → fs'.node x = fs.node x) fs w := by
  refine Yields.mapError (Yields.weaken (RedbStateStore.commit_yields h.state
    (fun hcalm => hsafe hcalm.1) ?_) (fun hcalm => hcalm) ?_)
  · rintro ⟨-, version, w', hrun⟩
    exact ⟨_, (commitRecords_run.mp hrun).1⟩
  · rintro version fs' ⟨state', hcommit, hnode⟩
    have hother : ∀ x, x ≠ dir.statePath → fs'.node x = fs.node x := by
      intro x hx
      rw [hnode, Function.update_of_ne hx]
    refine ⟨version, { w with state := state' }, commitRecords_run.mpr ⟨hcommit, rfl⟩,
      ⟨h.secrets.congr ?_ ?_, ?_⟩, hother⟩
    · rw [hother _ dir.statePath_ne_directory.symm]
      exact h.secrets.directory
    · intro id
      exact hother _ (dir.statePath_ne_pathFor id).symm
    · rw [hnode, Function.update_self]

omit [Crypto] [FileCipher] in
theorem exists_secretsDirectory (hdir : fs.node dir.path = some .dir)
    (hempty : ∀ name, fs.node (name :: dir.path) = none) :
    ∃ fs₁, fs.createDirAll dir.secrets.directory = .ok fs₁ := by
  refine Files.exists_createDirAll fun x hx => ?_
  rcases List.suffix_cons_iff.mp hx with rfl | hx
  · exact .inl (hempty _)
  · exact .inr (Files.node_of_suffix hdir hx)

omit [Crypto] in
theorem Filling.start (hdir : fs.node dir.path = some .dir)
    (hempty : ∀ name, fs.node (name :: dir.path) = none)
    (hcreate : fs.createDirAll dir.secrets.directory = .ok fs') :
    Filling Calm dir fs' Stores.empty := by
  obtain ⟨hdirs, hrest⟩ := Files.createDirAll_spec hcreate
  have hnone : ∀ name t, fs.node (t :: name :: dir.path) = none := by
    intro name t
    exact Files.child_eq_none (by rw [hempty]; simp) t
  have hkeep : ∀ x, x ≠ dir.secrets.directory → fs'.node x = fs.node x := by
    intro x hx
    refine (hrest x).resolve_right fun hnew => ?_
    rcases List.suffix_cons_iff.mp hnew.1 with rfl | hsuffix
    · exact hx rfl
    · exact absurd (hnew.2.symm.trans (Files.node_of_suffix hdir hsuffix)) (by simp)
  refine ⟨⟨hdirs _ List.suffix_rfl, ?_, ?_⟩, ⟨?_, rfl⟩, ?_, ?_⟩
  · intro id secret hlookup
    cases hlookup
  · intro id _
    rw [hkeep _ (dir.secrets.directory_ne_pathFor id).symm]
    exact hnone _ _
  · rw [hkeep _ dir.statePath_ne_directory]
    exact hempty _
  · rw [hkeep _ fun heq => dir.manifestPath_not_below (heq ▸ List.suffix_rfl)]
    exact hempty _
  · intro _ suffix
    rw [hkeep _ (dir.secrets.directory_ne_tempPath suffix).symm]
    exact hnone _ _

omit [Crypto] in
theorem Filling.holds (h : Filling Calm dir fs w)
    (hnode : fs'.node = Function.update fs.node dir.statePath
      (some (.file (.database Versioned.Store.empty) true))) :
    dir.Holds fs' w ∧ fs'.node dir.manifestPath = none := by
  have hkeep : ∀ x, x ≠ dir.statePath → fs'.node x = fs.node x := by
    intro x hx
    rw [hnode, Function.update_of_ne hx]
  refine ⟨⟨h.secrets.congr ?_ ?_, ?_⟩, ?_⟩
  · rw [hkeep _ dir.statePath_ne_directory.symm]
    exact h.secrets.directory
  · intro id
    exact hkeep _ (dir.statePath_ne_pathFor id).symm
  · rw [hnode, h.state.2, Function.update_self]
  · rw [hkeep _ dir.manifestPath_ne_statePath]
    exact h.manifest

omit [Crypto] in
theorem DataDirectory.Holds.complete (h : dir.Holds fs w) {manifest : Bytes}
    (hnode : fs'.node = Function.update fs.node dir.manifestPath
      (some (.file (.bytes manifest) true))) : dir.Complete fs' manifest w := by
  refine ⟨h.congr ?_, ?_⟩
  · intro x hx
    rw [hnode]
    refine Function.update_of_ne ?_ _ _
    rintro rfl
    rcases hx with hx | hx
    · exact dir.manifestPath_ne_statePath hx
    · exact dir.manifestPath_not_below hx
  · rw [hnode, Function.update_self]

/-- What a new directory is filled with is what the stores are filled with: when the program
succeeds, the store program does, and the directory holds the manifest and the stores. Where no
request fails and the draws are there, it succeeds when the store program does. -/
theorem initializeStagingAt_refines {options : AuthorityInit} {random : InitRandomness}
    {draws : StagingDraws} (hdir : fs.node dir.path = some .dir)
    (hempty : ∀ name, fs.node (name :: dir.path) = none) (hsafe : Calm → ∀ r, ¬ Fails r)
    (hdraws : Calm → ∀ d ∈ [draws.onlineAdmin, draws.memberSigning, draws.memberEncryption,
      draws.endpoint], d.nonce.isSome = true ∧ d.suffix.isSome = true) :
    Refines (faulty Fails) Calm serve (initializeStagingAt dir options random draws)
      (initializeStaging options random)
      (fun init result fs' w' => result.2 = init ∧ dir.Complete fs' result.1 w') fs
      Stores.empty := by
  unfold initializeStagingAt initializeStaging
  refine Refines.lift_andThen fun g hplan => ?_
  -- the directory of the secrets
  refine Refines.silent (Yields.mapError (change_yields ?_)) ?_
  · intro hcalm
    exact ⟨hsafe hcalm _, exists_secretsDirectory hdir hempty⟩
  intro _ fs₁ hfs₁
  have hfilling : Filling Calm dir fs₁ Stores.empty := .start hdir hempty hfs₁
  -- the secrets
  refine Refines.andThen (sealSecretAt_refines hfilling hsafe
    (fun hcalm => hdraws hcalm _ (by simp)) _ _ _) ?_
  intro _ _ fs₂ w₂ hfilling
  refine Refines.andThen (sealSecretAt_refines hfilling hsafe
    (fun hcalm => hdraws hcalm _ (by simp)) _ _ _) ?_
  intro _ _ fs₃ w₃ hfilling
  refine Refines.andThen (sealSecretAt_refines hfilling hsafe
    (fun hcalm => hdraws hcalm _ (by simp)) _ _ _) ?_
  intro _ _ fs₄ w₄ hfilling
  refine Refines.andThen (sealSecretAt_refines hfilling hsafe
    (fun hcalm => hdraws hcalm _ (by simp)) _ _ _) ?_
  intro _ _ fs₅ w₅ hfilling
  -- the database
  refine Refines.silent (Yields.mapError (RedbStateStore.openPath_yields
    (DataDirectory.node_path hfilling.secrets)
    (show fs₅.node ("state.redb" :: dir.path) = none from hfilling.state.1) hsafe)) ?_
  intro _ fs₆ hnode₆
  obtain ⟨hholds, habsent⟩ := hfilling.holds hnode₆
  refine Refines.lift_andThen fun batch hbatch => ?_
  refine Refines.andThen (commitAt_refines hholds hsafe batch) ?_
  rintro _ _ fs₇ w₇ ⟨hholds, hkeep⟩
  -- the manifest
  rw [← hkeep _ dir.manifestPath_ne_statePath] at habsent
  refine Refines.andThen (writeManifest_refines (DataDirectory.node_path hholds.secrets)
    (show fs₇.node ("authority.manifest" :: dir.path) = none from habsent) hsafe _) ?_
  rintro _ bytes fs₈ w₈ ⟨rfl, hnode₈⟩
  exact Refines.of_pure ⟨rfl, hholds.complete hnode₈⟩

end Refinement

end Weaver
