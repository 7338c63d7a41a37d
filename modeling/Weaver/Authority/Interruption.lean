import Weaver.Authority.Staging

/-!
# Initialization, interrupted

`Authority::initialize` may be stopped after any request, or any of its requests may fail. Until the
rename nothing at the data directory changes; after it, the directory is complete and the recovery
file is written. In between there is nothing (`initializeAt_always`).

That holds when the recovery file is outside of the data directory and of the staging directory,
which the source does not check.
-/

namespace Weaver

open Checked Wire Versioned Program FileSystem

variable [Crypto] [FileCipher]

/-! ## Where the initialization acts -/

omit [Crypto] in
theorem sealSecretAt_only [Crypto] (dir : DataDirectory) (draws : SecretDraws)
    (networkId : NetworkId) (label : String) (value : Bytes) :
    Prog.Only (FileSystem.Request.Around dir.path)
      (sealSecretAt dir draws networkId label value) :=
  Task.mapError_only ((dir.secrets.sealSync_only draws _ value).mono fun _ hr =>
    hr.around (List.suffix_cons _ _))

omit [Crypto] [FileCipher] in
theorem writeManifest_only (dir : DataDirectory) (m : Manifest) :
    Prog.Only (FileSystem.Request.Around dir.path) (writeManifest dir.manifestPath m) := by
  have hbelow : dir.path <:+ dir.manifestPath := List.suffix_cons _ _
  have hwrite : ∀ b, FileSystem.Request.Around dir.path
      (.change (.append dir.manifestPath b) : FileSystem.Request String StateStore) :=
    fun b x => ⟨False.elim, fun h => h ▸ hbelow⟩
  refine Prog.Only.andThen (change_only fun x => ⟨fun h => .inl (h ▸ hbelow), False.elim⟩) fun _ => ?_
  refine Prog.Only.andThen (writeAll_only hwrite _) fun _ => ?_
  refine Prog.Only.lift_andThen fun _ _ => Prog.Only.andThen (writeAll_only hwrite _) fun _ => ?_
  exact change_only fun x => ⟨False.elim, fun h => h ▸ hbelow⟩

theorem initializeStagingAt_only (dir : DataDirectory) (options : AuthorityInit)
    (random : InitRandomness) (draws : StagingDraws) :
    Prog.Only (FileSystem.Request.Around dir.path)
      (initializeStagingAt dir options random draws) := by
  have hstate : dir.path <:+ dir.statePath := List.suffix_cons _ _
  have hsuffix : ∀ {name : String} {x : FilePath}, x <:+ name :: dir.path →
      dir.path <:+ x ∨ x <:+ dir.path := by
    intro name x hx
    rcases List.suffix_cons_iff.mp hx with rfl | hx
    · exact .inl (List.suffix_cons _ _)
    · exact .inr hx
  unfold initializeStagingAt
  refine Prog.Only.lift_andThen fun g _ => Prog.Only.andThen (Task.mapError_only
    (change_only fun x => ⟨hsuffix, False.elim⟩)) fun _ => ?_
  refine (sealSecretAt_only _ _ _ _ _).andThen fun _ => (sealSecretAt_only _ _ _ _ _).andThen
    fun _ => (sealSecretAt_only _ _ _ _ _).andThen fun _ =>
    (sealSecretAt_only _ _ _ _ _).andThen fun _ => ?_
  refine Prog.Only.andThen (Task.mapError_only (Prog.Only.andThen
    (change_only fun x => ⟨fun hx => .inr hx, False.elim⟩) fun _ =>
      change_only fun x => ⟨fun h => .inl (h ▸ hstate), False.elim⟩)) fun _ => ?_
  refine Prog.Only.lift_andThen fun batch _ => Prog.Only.andThen (Task.mapError_only
    (Prog.Only.andThen ⟨fun x => ⟨False.elim, False.elim⟩, fun _ => trivial⟩ fun state =>
      Prog.Only.lift_andThen fun result _ => ?_)) fun _ => ?_
  · exact Prog.Only.andThen (change_only fun x => ⟨False.elim, fun h => h ▸ hstate⟩) fun _ => trivial
  · exact (writeManifest_only _ _).andThen fun _ => trivial

/-! ## The last steps -/

section Steps

variable {Fails : FileSystem.Request String StateStore → Prop} {Calm Steady : Prop}
  {fs fs' : DataFiles}

omit [Crypto] [FileCipher] in
/-- The recovery file is new and complete, and nothing else changes but what was missing above it.
When the program fails after the file was created, then a write or a sync has failed. -/
theorem writeRecoveryRoot_always {path : FilePath} {root : Bytes32}
    (hsteady : Steady → (∀ b, ¬ Fails (.change (.append path b))) ∧
      ¬ Fails (.change (.syncFile path)) ∧ ¬ Fails (.change (.syncDir path.tail)))
    (hcalm : Calm → Steady ∧ (∀ r, ¬ Fails r) ∧ path ≠ [] ∧ fs.node path = none ∧
      ∀ x, x <:+ path.tail → fs.node x = none ∨ fs.node x = some .dir) :
    Always (faulty Fails) (fs.GrownTo path) (writeRecoveryRoot path root)
      (Ends (fun _ fs' => fs.GrownTo path fs' ∧ (Steady → fs'.node path = fs.node path) ∧ ¬ Calm)
        fun _ fs' => fs.GrownTo path fs' ∧ fs.node path = none ∧
          fs'.node path = some (.file (.bytes (recoveryRootMagic ++ root.val)) true)) fs := by
  cases path with
  | nil => exact ⟨.refl _ _, fun _ => rfl, fun hc => (hcalm hc).2.2.1 rfl⟩
  | cons name parent =>
    have hparent : parent <:+ name :: parent := List.suffix_cons _ _
    have hself : ¬ name :: parent <:+ parent := fun h => absurd h.length_le (by simp)
    have hcalm₁ : Calm → ¬ Fails (.change (.createDirAll parent)) ∧
        ∃ fs', fs.createDirAll parent = .ok fs' := by
      intro hc
      obtain ⟨-, hsafe, -, -, habove⟩ := hcalm hc
      exact ⟨hsafe _, Files.exists_createDirAll habove⟩
    refine Always.andThen (Q := fun _ fs' => fs.DirsTo parent fs' ∧ fs'.node parent = some .dir)
      ((always_createDirAll hcalm₁).weaken (fun _ h => h.grownTo hparent) ?_) ?_
    · intro result fs₁ hresult
      cases result with
      | error e => exact ⟨hresult.1.grownTo hparent, fun _ => hresult.1.of_not_suffix hself, hresult.2⟩
      | ok u => exact hresult
    rintro _ fs₁ ⟨hdirs, hdir⟩
    have hcalm₂ : Calm → Steady ∧ ¬ Fails (.change (.createNew (name :: parent))) ∧
        ∃ fs', fs₁.create (.file (.bytes []) false) (name :: parent) = .ok fs' := by
      intro hc
      obtain ⟨hs, hsafe, -, habsent, -⟩ := hcalm hc
      refine ⟨hs, hsafe _, Files.exists_create _ hdir ?_⟩
      rw [hdirs.of_not_suffix hself]
      exact habsent
    refine Always.andThen (Q := fun _ fs' => fs.GrownTo (name :: parent) fs' ∧
        fs.node (name :: parent) = none ∧ fs'.node parent = some .dir ∧
        fs'.node (name :: parent) = some (.file (.bytes (recoveryRootMagic ++ root.val)) true))
      ((writeNew_always (fun hs => ⟨(hsteady hs).1, (hsteady hs).2.1⟩) hcalm₂).weaken
        (fun _ h => (hdirs.grownTo hparent).trans h) ?_) ?_
    · intro result fs₂ hresult
      cases result with
      | error e =>
        obtain ⟨hgrown₂, hsame, hcalm'⟩ := hresult
        exact ⟨(hdirs.grownTo hparent).trans hgrown₂,
          fun hs => (hsame hs).trans (hdirs.of_not_suffix hself), hcalm'⟩
      | ok u =>
        obtain ⟨habsent, hnode⟩ := hresult
        refine ⟨(hdirs.grownTo hparent).trans (Files.grownTo_create habsent hnode),
          (hdirs.of_not_suffix hself).symm.trans habsent, ?_, ?_⟩
        · rw [hnode, Function.update_of_ne (List.cons_ne_self name parent).symm]
          exact hdir
        · rw [hnode, Function.update_self]
          simp
    rintro _ fs₂ ⟨hgrown₂, habsent, hdir₂, hfile⟩
    refine (always_syncDir hdir₂ (fun hs => (hsteady hs).2.2) hgrown₂).weaken (fun _ h => h) ?_
    intro result fs₃ hresult
    cases result with
    | error e =>
      obtain ⟨rfl, hnot⟩ := hresult
      exact ⟨hgrown₂, fun hs => absurd hs hnot, fun hc => hnot (hcalm hc).1⟩
    | ok u =>
      obtain rfl : fs₃ = fs₂ := hresult
      exact ⟨hgrown₂, habsent, hfile⟩

omit [Crypto] [FileCipher] in
theorem finish_always {staging target : FilePath} (hstaging : fs.node staging = some .dir)
    (hne : staging ≠ []) (htarget : target ≠ []) (hparent : fs.node target.tail = some .dir)
    (habsent : fs.node target = none) (hinto : ¬ staging <:+ target)
    (hsteady : Steady → ¬ Fails (.change (.syncDir staging)) ∧
      ¬ Fails (.change (.rename staging target)) ∧ ¬ Fails (.change (.syncDir target.tail))) :
    Always (faulty Fails) (fun fs' => fs' = fs ∨ fs.rename staging target = .ok fs')
      (do change ioError (.syncDir staging)
          change ioError (.rename staging target)
          change ioError (.syncDir target.tail) : FileTask AuthorityError Unit)
      (Ends (fun _ fs' => (fs' = fs ∨ fs.rename staging target = .ok fs') ∧ ¬ Steady)
        fun _ fs' => fs.rename staging target = .ok fs') fs := by
  obtain ⟨name, parent, rfl⟩ := List.exists_cons_of_ne_nil htarget
  obtain ⟨moved, hmoved⟩ := Files.exists_rename hne (by rw [hstaging]; rfl) hparent habsent hinto
  refine Always.andThen (Q := fun _ fs' => fs' = fs)
    ((always_syncDir hstaging (fun hs => (hsteady hs).1) (.inl rfl)).weaken (fun _ h => h) ?_) ?_
  · intro result fs' hresult
    cases result with
    | error e => exact ⟨.inl hresult.1, hresult.2⟩
    | ok u => exact hresult
  rintro _ fs' rfl
  refine always_change_andThen ?_ ?_
  · intro fs₁ hrename
    obtain rfl := Except.ok.inj (hmoved.symm.trans hrename)
    obtain ⟨-, -, -, hrest⟩ := Files.rename_eq_ok.mp hmoved
    have hparent₁ : moved.node parent = some .dir := by
      rw [hrest parent (fun h => absurd h.length_le (by simp))
        fun h => hinto (h.trans (List.suffix_cons _ _))]
      exact hparent
    refine ⟨.inr hmoved, (always_syncDir hparent₁ (fun hs => (hsteady hs).2.2)
      (.inr hmoved)).weaken (fun _ h => h) ?_⟩
    intro result fs₂ hresult
    cases result with
    | error e =>
      obtain ⟨rfl, hnot⟩ := hresult
      exact ⟨.inr hmoved, hnot⟩
    | ok u =>
      obtain rfl : fs₂ = moved := hresult
      exact hmoved
  · intro e fs₁ hwhy
    have hsame : fs₁ = fs' := hwhy.elim And.left And.right
    refine ⟨.inl hsame, .inl hsame, ?_⟩
    intro hs
    rcases hwhy with ⟨-, herror⟩ | ⟨hfails, -⟩
    · exact absurd (hmoved.symm.trans herror) (by simp)
    · exact (hsteady hs).2.1 hfails

end Steps

/-! ## What the initialization leaves -/

omit [Crypto] [FileCipher] in
theorem stagingPath_eq_ok {target staging : FilePath} {random : Option (BytesN 12)}
    (h : stagingPath target random = .ok staging) :
    staging.length = target.length ∧ staging ≠ target ∧ staging.tail = target.tail ∧
      staging ≠ [] := by
  unfold stagingPath at h
  split at h
  · cases h
  · next name parent =>
    obtain ⟨bytes, -, h⟩ := bind_eq_ok.mp h
    obtain rfl := Except.ok.inj h
    refine ⟨rfl, ?_, rfl, List.cons_ne_nil _ _⟩
    intro heq
    have hname := congrArg String.length (List.cons.inj heq).1
    rw [stagingName, String.length_append, String.length_append, String.length_append] at hname
    have hdot : ".".length = 1 := rfl
    omega

structure Established (options : FileAuthorityInit) (random : InitRandomness) (fs : DataFiles)
    (init : InitializedAuthority) : Prop where
  complete : ∃ manifest stores,
    ( Authority.initialize options.toAuthorityInit random).run serve Stores.empty =
        (.ok (manifest, init), stores) ∧
      DataDirectory.Complete ⟨options.dataDir, options.masterKey⟩ fs manifest stores
  recovery : ∀ path, options.recoveryRootOut = some path →
    fs.node path = some (.file (.bytes (recoveryRootMagic ++ init.recoveryRoot.val)) true)

structure Unharmed (options : FileAuthorityInit) (random : InitRandomness) (fs₀ fs : DataFiles) :
    Prop where
  dataDir : (∀ x, options.dataDir <:+ x → fs.node x = fs₀.node x) ∨
    fs₀.node options.dataDir = none ∧ ∃ init, Established options random fs init
  recovery : ∀ path, options.recoveryRootOut = some path → (fs₀.node path).isSome = true →
    fs.node path = fs₀.node path

def FileAuthorityInit.Above (options : FileAuthorityInit) (x : FilePath) : Prop :=
  x <:+ options.dataDir.tail ∨ ∃ path, options.recoveryRootOut = some path ∧ x <:+ path.tail

/-- The data directory and the recovery file are as they were, and so is what is above them, except
for directories that were missing. -/
structure Restored (options : FileAuthorityInit) (fs₀ fs : DataFiles) : Prop where
  dataDir : fs.node options.dataDir = fs₀.node options.dataDir
  recovery : ∀ path, options.recoveryRootOut = some path → fs.node path = fs₀.node path
  above : ∀ x, options.Above x →
    fs.node x = fs₀.node x ∨ fs₀.node x = none ∧ fs.node x = some .dir

def FileAuthorityInit.Apart (options : FileAuthorityInit) (draws : StagingDraws) : Prop :=
  ∀ path, options.recoveryRootOut = some path → ¬ options.dataDir <:+ path ∧
    ∀ staging, stagingPath options.dataDir draws.name = .ok staging → ¬ staging <:+ path

def FileAuthorityInit.Unrelated (options : FileAuthorityInit) : Prop :=
  ∀ path, options.recoveryRootOut = some path → ¬ path <:+ options.dataDir

/-- What is outside of the staging directory is as it was, except for directories above the data
directory that were missing. -/
def Begun (options : FileAuthorityInit) (staging : FilePath) (fs₀ fs : DataFiles) : Prop :=
  ∀ x, ¬ staging <:+ x → fs.node x = fs₀.node x ∨
    x <:+ options.dataDir.tail ∧ fs₀.node x = none ∧ fs.node x = some .dir

section Phases

variable {options : FileAuthorityInit} {random : InitRandomness} {draws : StagingDraws}
  {staging : FilePath} {fs₀ fs fs' : DataFiles}

omit [Crypto] [FileCipher] in
theorem Begun.outside (h : Begun options staging fs₀ fs) (hsame : fs.SameOutside staging fs') :
    Begun options staging fs₀ fs' := by
  intro x hx
  rw [hsame x hx]
  exact h x hx

variable {x : FilePath}

omit [Crypto] [FileCipher] in
theorem not_above_of_below {target : FilePath} (htarget : target ≠ []) (hx : target <:+ x) :
    ¬ x <:+ target.tail := by
  intro h
  have hlength := h.length_le
  have hpos := List.length_pos_of_ne_nil htarget
  have hlength' := hx.length_le
  rw [List.length_tail] at hlength
  omega

section Staged

variable (hapart : options.Apart draws)
  (hstaging : stagingPath options.dataDir draws.name = .ok staging)

include hstaging

omit [Crypto] [FileCipher] in
theorem not_staging_of_above
    (hx : x <:+ options.dataDir.tail) : ¬ staging <:+ x := by
  obtain ⟨-, -, htail, hne⟩ := stagingPath_eq_ok hstaging
  intro h
  exact not_above_of_below hne h (htail ▸ hx)

omit [Crypto] [FileCipher] in
theorem Begun.dataDir (h : Begun options staging fs₀ fs) (hx : options.dataDir <:+ x) :
    fs.node x = fs₀.node x := by
  obtain ⟨hlength, hne, htail, hnil⟩ := stagingPath_eq_ok hstaging
  have htarget : options.dataDir ≠ [] := by
    intro heq
    rw [heq, List.length_nil, List.length_eq_zero_iff] at hlength
    exact hnil hlength
  refine (h x (Files.not_suffix_of_ne hlength.symm hne.symm hx)).resolve_right fun hnew => ?_
  exact not_above_of_below htarget hx hnew.1

include hapart

omit [Crypto] [FileCipher] in
theorem Begun.recovery (h : Begun options staging fs₀ fs) {path : FilePath}
    (hpath : options.recoveryRootOut = some path) (hpresent : (fs₀.node path).isSome = true) :
    fs.node path = fs₀.node path := by
  refine (h path ((hapart path hpath).2 staging hstaging)).resolve_right fun hnew => ?_
  rw [hnew.2.1] at hpresent
  cases hpresent

theorem Begun.unharmed (h : Begun options staging fs₀ fs)
    (hgrown : fs' = fs ∨ ∃ path, options.recoveryRootOut = some path ∧ fs.GrownTo path fs') :
    Unharmed options random fs₀ fs' := by
  rcases hgrown with rfl | ⟨path, hpath, hgrown⟩
  · exact ⟨.inl fun x hx => h.dataDir hstaging hx, fun path hpath =>
      h.recovery hapart hstaging hpath⟩
  · refine ⟨.inl fun x hx => ?_, ?_⟩
    · rw [hgrown.of_not_suffix fun hbelow => (hapart path hpath).1 (hx.trans hbelow)]
      exact h.dataDir hstaging hx
    · intro path' hpath' hpresent
      have hsame := h.recovery hapart hstaging hpath' hpresent
      rw [hgrown.of_present (by rw [hsame]; exact hpresent)]
      exact hsame

omit [Crypto] [FileCipher] in
theorem FileAuthorityInit.Above.not_staging (hx : options.Above x) : ¬ staging <:+ x := by
  rcases hx with hx | ⟨path, hpath, hx⟩
  · exact not_staging_of_above hstaging hx
  · intro h
    exact (hapart path hpath).2 staging hstaging
      (h.trans (hx.trans (List.tail_suffix path)))

omit [Crypto] [FileCipher] in
theorem Begun.restored (h : Begun options staging fs₀ fs)
    (hunrelated : options.Unrelated)
    (hgrown : fs' = fs ∨ ∃ path, options.recoveryRootOut = some path ∧ fs.GrownTo path fs' ∧
      fs'.node path = fs.node path) : Restored options fs₀ fs' := by
  have hrecovery : ∀ path, options.recoveryRootOut = some path →
      fs.node path = fs₀.node path := by
    intro path hpath
    refine (h path ((hapart path hpath).2 staging hstaging)).resolve_right fun hnew => ?_
    exact hunrelated path hpath (hnew.1.trans (List.tail_suffix _))
  have habove : ∀ x, options.Above x →
      fs.node x = fs₀.node x ∨ fs₀.node x = none ∧ fs.node x = some .dir :=
    fun x hx => (h x (hx.not_staging hapart hstaging)).imp id And.right
  rcases hgrown with rfl | ⟨path, hpath, hgrown, hsame⟩
  · exact ⟨h.dataDir hstaging List.suffix_rfl, hrecovery, habove⟩
  · refine ⟨?_, ?_, ?_⟩
    · rw [hgrown.of_not_suffix (hapart path hpath).1]
      exact h.dataDir hstaging List.suffix_rfl
    · intro path' hpath'
      obtain rfl := Option.some.inj (hpath.symm.trans hpath')
      exact hsame.trans (hrecovery path hpath)
    · intro x hx
      rcases hgrown x with hx' | ⟨-, habsent, hdir⟩
      · rw [hx']
        exact habove x hx
      · by_cases heq : x = path
        · rw [heq, hsame, ← heq]
          exact habove x hx
        · rcases habove x hx with hx' | hx'
          · exact .inr ⟨hx'.symm.trans habsent, hdir heq⟩
          · exact .inr ⟨hx'.1, hdir heq⟩

variable {init : InitializedAuthority}

theorem Established.outside (h : Established options random fs init)
    (hsame : fs.SameOutside staging fs') : Established options random fs' init := by
  obtain ⟨hlength, hne, -, -⟩ := stagingPath_eq_ok hstaging
  obtain ⟨⟨manifest, stores, hrun, hcomplete⟩, hrecovery⟩ := h
  refine ⟨⟨manifest, stores, hrun, hcomplete.congr fun x hx => ?_⟩, ?_⟩
  · exact hsame x (Files.not_suffix_of_ne hlength.symm hne.symm hx)
  · intro path hpath
    rw [hsame path ((hapart path hpath).2 staging hstaging)]
    exact hrecovery path hpath

theorem Unharmed.outside (h : Unharmed options random fs₀ fs)
    (hsame : fs.SameOutside staging fs') : Unharmed options random fs₀ fs' := by
  obtain ⟨hlength, hne, -, -⟩ := stagingPath_eq_ok hstaging
  refine ⟨?_, ?_⟩
  · rcases h.dataDir with hdata | ⟨habsent, init, hinit⟩
    · refine .inl fun x hx => ?_
      rw [hsame x (Files.not_suffix_of_ne hlength.symm hne.symm hx)]
      exact hdata x hx
    · exact .inr ⟨habsent, init, hinit.outside hapart hstaging hsame⟩
  · intro path hpath hpresent
    rw [hsame path ((hapart path hpath).2 staging hstaging)]
    exact h.recovery path hpath hpresent

omit [Crypto] [FileCipher] in
theorem Restored.outside (h : Restored options fs₀ fs)
    (hsame : fs.SameOutside staging fs') : Restored options fs₀ fs' := by
  obtain ⟨hlength, hne, -, -⟩ := stagingPath_eq_ok hstaging
  refine ⟨?_, ?_, ?_⟩
  · rw [hsame _ (Files.not_suffix_of_ne hlength.symm hne.symm List.suffix_rfl)]
    exact h.dataDir
  · intro path hpath
    rw [hsame path ((hapart path hpath).2 staging hstaging)]
    exact h.recovery path hpath
  · intro x hx
    rw [hsame x (hx.not_staging hapart hstaging)]
    exact h.above x hx

theorem Established.of_rename {manifest : Bytes} {stores : Stores}
    (hrun : ( Authority.initialize options.toAuthorityInit random).run serve Stores.empty =
      (.ok (manifest, init), stores))
    (hcomplete : DataDirectory.Complete ⟨staging, options.masterKey⟩ fs manifest stores)
    (hrecovery : ∀ path, options.recoveryRootOut = some path →
      fs.node path = some (.file (.bytes (recoveryRootMagic ++ init.recoveryRoot.val)) true))
    (hrename : fs.rename staging options.dataDir = .ok fs') :
    Established options random fs' init := by
  obtain ⟨-, -, -, hrest⟩ := Files.rename_eq_ok.mp hrename
  refine ⟨⟨manifest, stores, hrun, hcomplete.rename hrename⟩, ?_⟩
  intro path hpath
  obtain ⟨hout, hout'⟩ := hapart path hpath
  rw [hrest path hout (hout' staging hstaging)]
  exact hrecovery path hpath

end Staged

theorem unharmed_of_dirsTo (h : fs₀.DirsTo options.dataDir.tail fs)
    (htarget : options.dataDir ≠ []) : Unharmed options random fs₀ fs := by
  refine ⟨.inl fun x hx => h.of_not_suffix (not_above_of_below htarget hx), ?_⟩
  intro path _ hpresent
  refine (h path).resolve_right fun hnew => ?_
  rw [hnew.2.1] at hpresent
  cases hpresent

omit [Crypto] [FileCipher] in
theorem restored_of_dirsTo (h : fs₀.DirsTo options.dataDir.tail fs)
    (htarget : options.dataDir ≠ []) (hunrelated : options.Unrelated) :
    Restored options fs₀ fs := by
  refine ⟨h.of_not_suffix (not_above_of_below htarget List.suffix_rfl), ?_, ?_⟩
  · intro path hpath
    exact h.of_not_suffix fun habove => hunrelated path hpath (habove.trans (List.tail_suffix _))
  · intro x _
    exact (h x).imp id And.right

/-- The steps after the staging directory is complete that leave something outside of it when they
fail: those that follow the creation of the recovery file. -/
def FinalStep (options : FileAuthorityInit) (draws : StagingDraws) :
    FileSystem.Request String StateStore → Prop
  | .change (.append p _) => options.recoveryRootOut = some p
  | .change (.syncFile p) => options.recoveryRootOut = some p
  | .change (.syncDir p) => stagingPath options.dataDir draws.name = .ok p ∨
      p = options.dataDir.tail ∨ ∃ path, options.recoveryRootOut = some path ∧ p = path.tail
  | .change (.rename p q) => stagingPath options.dataDir draws.name = .ok p ∧ q = options.dataDir
  | _ => False

/-- The initialization can go through: its options and its keys are fit for a network, everything it
draws is there, its paths are free, and no file is in the way above them. -/
structure Ready (options : FileAuthorityInit) (random : InitRandomness) (draws : StagingDraws)
    (fs : DataFiles) : Prop where
  planned : ∃ result stores,
    ( Authority.initialize options.toAuthorityInit random).run serve Stores.empty =
      (.ok result, stores)
  staging : ∃ staging, stagingPath options.dataDir draws.name = .ok staging ∧
    fs.node staging = none
  draws : ∀ d ∈ [draws.onlineAdmin, draws.memberSigning, draws.memberEncryption, draws.endpoint],
    d.nonce.isSome = true ∧ d.suffix.isSome = true
  dataDir : fs.node options.dataDir = none
  recovery : ∀ path, options.recoveryRootOut = some path → fs.node path = none
  above : ∀ x, options.Above x → fs.node x = none ∨ fs.node x = some .dir

omit [FileCipher] in
theorem Ready.restored (h : Ready options random draws fs₀) (hrestored : Restored options fs₀ fs)
    (hfresh : ∀ staging, stagingPath options.dataDir draws.name = .ok staging →
      fs.node staging = none) : Ready options random draws fs := by
  obtain ⟨staging, hstaging, -⟩ := h.staging
  refine ⟨h.planned, ⟨staging, hstaging, hfresh staging hstaging⟩, h.draws, ?_, ?_, ?_⟩
  · rw [hrestored.dataDir]
    exact h.dataDir
  · intro path hpath
    rw [hrestored.recovery path hpath]
    exact h.recovery path hpath
  · intro x hx
    rcases hrestored.above x hx with hsame | ⟨-, hdir⟩
    · rw [hsame]
      exact h.above x hx
    · exact .inr hdir

end Phases

section Master

variable {Fails : FileSystem.Request String StateStore → Prop} {Calm Steady : Prop}
  {options : FileAuthorityInit} {random : InitRandomness} {draws : StagingDraws}
  {staging : FilePath} {fs₀ fs fs' : DataFiles}

/-- How the initialization fails: nothing is harmed, and when no final step has failed everything is
restored. -/
def Failed (options : FileAuthorityInit) (random : InitRandomness) (Calm Steady : Prop)
    (fs₀ fs : DataFiles) : Prop :=
  Unharmed options random fs₀ fs ∧ (Steady → Restored options fs₀ fs) ∧ ¬ Calm

/-- The recovery file is new, when there is to be one, and nothing else has changed but what was
missing above it. -/
structure Exported (options : FileAuthorityInit) (root : Bytes32) (fs fs' : DataFiles) : Prop where
  grown : fs' = fs ∨ ∃ path, options.recoveryRootOut = some path ∧ fs.GrownTo path fs'
  file : ∀ path, options.recoveryRootOut = some path → fs.node path = none ∧
    fs'.node path = some (.file (.bytes (recoveryRootMagic ++ root.val)) true)

omit [Crypto] [FileCipher] in
theorem Exported.node {root : Bytes32} {x : FilePath} (h : Exported options root fs fs')
    (hx : (fs.node x).isSome = true ∨
      ∀ path, options.recoveryRootOut = some path → ¬ x <:+ path) : fs'.node x = fs.node x := by
  rcases h.grown with rfl | ⟨path, hpath, hgrown⟩
  · rfl
  · rcases hx with hx | hx
    · exact hgrown.of_present hx
    · exact hgrown.of_not_suffix (hx path hpath)

section Steady

variable (hapart : options.Apart draws)
  (hstaging : stagingPath options.dataDir draws.name = .ok staging)
  (hbegun : Begun options staging fs₀ fs)
  (hsteady : Steady → options.Unrelated ∧ ∀ r, FinalStep options draws r → ¬ Fails r)
  (hcalm : Calm → Steady ∧ (∀ r, ¬ Fails r) ∧ Ready options random draws fs₀)

include hapart hstaging hbegun hsteady hcalm

theorem exportRecoveryRoot_always {root : Bytes32} :
    Always (faulty Fails) (Unharmed options random fs₀)
      (exportRecoveryRoot options.recoveryRootOut root)
      (Ends (fun _ fs' => Failed options random Calm Steady fs₀ fs') fun _ fs' =>
        Exported options root fs fs') fs := by
  cases hout : options.recoveryRootOut with
  | none =>
    refine ⟨.inl rfl, ?_⟩
    intro path hpath
    exact absurd (hout.symm.trans hpath) (by simp)
  | some path =>
    have hsteady' : Steady → (∀ b, ¬ Fails (.change (.append path b))) ∧
        ¬ Fails (.change (.syncFile path)) ∧ ¬ Fails (.change (.syncDir path.tail)) := by
      intro hs
      obtain ⟨-, hfinal⟩ := hsteady hs
      exact ⟨fun b => hfinal _ hout, hfinal _ hout, hfinal _ (.inr (.inr ⟨path, hout, rfl⟩))⟩
    have hcalm' : Calm → Steady ∧ (∀ r, ¬ Fails r) ∧ path ≠ [] ∧ fs.node path = none ∧
        ∀ x, x <:+ path.tail → fs.node x = none ∨ fs.node x = some .dir := by
      intro hc
      obtain ⟨hs, hsafe, hready⟩ := hcalm hc
      have hrestored := hbegun.restored hapart hstaging (hsteady hs).1 (.inl rfl)
      have habsent : fs₀.node path = none := hready.recovery path hout
      refine ⟨hs, hsafe, ?_, (hrestored.recovery path hout).trans habsent, ?_⟩
      · rintro rfl
        exact absurd (habsent.symm.trans fs₀.root) (by simp)
      · intro x hx
        have habove : options.Above x := .inr ⟨path, hout, hx⟩
        rcases hrestored.above x habove with hsame | ⟨-, hdir⟩
        · rw [hsame]
          exact hready.above x habove
        · exact .inr hdir
    refine (writeRecoveryRoot_always hsteady' hcalm').weaken ?_ ?_
    · intro fs' hgrown
      exact hbegun.unharmed hapart hstaging (.inr ⟨path, hout, hgrown⟩)
    · intro result fs' hresult
      cases result with
      | error e =>
        obtain ⟨hgrown, hsame, hnot⟩ := hresult
        refine ⟨hbegun.unharmed hapart hstaging (.inr ⟨path, hout, hgrown⟩), ?_, hnot⟩
        intro hs
        exact hbegun.restored hapart hstaging (hsteady hs).1
          (.inr ⟨path, hout, hgrown, hsame hs⟩)
      | ok u =>
        refine ⟨.inr ⟨path, hout, hresult.1⟩, ?_⟩
        intro path' hpath'
        obtain rfl := Option.some.inj (hout.symm.trans hpath')
        exact hresult.2

theorem finalizeStaging_always {init : InitializedAuthority} {manifest : Bytes} {stores : Stores}
    (hrun : ( Authority.initialize options.toAuthorityInit random).run serve Stores.empty =
      (.ok (manifest, init), stores)) (hparent : fs.node options.dataDir.tail = some .dir)
    (habsent : fs₀.node options.dataDir = none)
    (hcomplete : DataDirectory.Complete ⟨staging, options.masterKey⟩ fs manifest stores) :
    Always (faulty Fails) (Unharmed options random fs₀)
      (finalizeStaging staging options init.recoveryRoot)
      (Ends (fun _ fs' => Failed options random Calm Steady fs₀ fs') fun _ fs' =>
        Unharmed options random fs₀ fs' ∧ Established options random fs' init) fs := by
  obtain ⟨hlength, hne, htail, hnil⟩ := stagingPath_eq_ok hstaging
  have htarget : options.dataDir ≠ [] := by
    intro heq
    rw [heq, List.length_nil, List.length_eq_zero_iff] at hlength
    exact hnil hlength
  have hinto : ¬ staging <:+ options.dataDir :=
    Files.not_suffix_of_ne hlength.symm hne.symm List.suffix_rfl
  unfold finalizeStaging
  refine Always.andThen (exportRecoveryRoot_always hapart hstaging hbegun hsteady hcalm) ?_
  intro _ fs₁ hfs₁
  have hunharmed : Unharmed options random fs₀ fs₁ :=
    hbegun.unharmed hapart hstaging hfs₁.grown
  have hcomplete₁ : DataDirectory.Complete ⟨staging, options.masterKey⟩ fs₁ manifest stores := by
    refine hcomplete.congr fun x hx => hfs₁.node (.inr fun path hpath h => ?_)
    exact (hapart path hpath).2 staging hstaging (hx.trans h)
  have hdir₁ : fs₁.node staging = some .dir := DataDirectory.node_path hcomplete₁.stores.secrets
  have hparent₁ : fs₁.node options.dataDir.tail = some .dir := by
    rw [hfs₁.node (.inl (by rw [hparent]; rfl))]
    exact hparent
  have hdata₁ : fs₁.node options.dataDir = none := by
    rw [hfs₁.node (.inr fun path hpath => (hapart path hpath).1),
      hbegun.dataDir hstaging List.suffix_rfl]
    exact habsent
  have hmoved : ∀ fs₂, fs₁.rename staging options.dataDir = .ok fs₂ →
      Unharmed options random fs₀ fs₂ ∧ Established options random fs₂ init := by
    intro fs₂ hrename
    have hestablished : Established options random fs₂ init :=
      .of_rename hapart hstaging hrun hcomplete₁ (fun path hpath => (hfs₁.file path hpath).2)
        hrename
    refine ⟨⟨.inr ⟨habsent, init, hestablished⟩, ?_⟩, hestablished⟩
    -- a recovery file that was there would not have been new
    intro path hpath hpresent
    have hsame := hbegun.recovery hapart hstaging hpath hpresent
    rw [← hsame, (hfs₁.file path hpath).1] at hpresent
    cases hpresent
  have hsteady' : Steady → ¬ Fails (.change (.syncDir staging)) ∧
      ¬ Fails (.change (.rename staging options.dataDir)) ∧
      ¬ Fails (.change (.syncDir options.dataDir.tail)) := by
    intro hs
    obtain ⟨-, hfinal⟩ := hsteady hs
    exact ⟨hfinal _ (.inl hstaging), hfinal _ ⟨hstaging, rfl⟩, hfinal _ (.inr (.inl rfl))⟩
  have hkept : ∀ fs₂, fs₂ = fs₁ ∨ fs₁.rename staging options.dataDir = .ok fs₂ →
      Unharmed options random fs₀ fs₂ := by
    intro fs₂ hfs₂
    rcases hfs₂ with rfl | hrename
    · exact hunharmed
    · exact (hmoved fs₂ hrename).1
  refine (finish_always hdir₁ hnil htarget hparent₁ hdata₁ hinto hsteady').weaken hkept ?_
  intro result fs₂ hresult
  cases result with
  | error e =>
    exact ⟨hkept fs₂ hresult.1, fun hs => absurd hs hresult.2,
      fun hc => hresult.2 (hcalm hc).1⟩
  | ok u => exact hmoved fs₂ hresult

theorem fillStaging_always (hparent : fs.node options.dataDir.tail = some .dir)
    (habsent : fs₀.node options.dataDir = none) (hdir : fs.node staging = some .dir)
    (hempty : ∀ name, fs.node (name :: staging) = none)
    (hvalid : validateInit options.toAuthorityInit = .ok ()) :
    Always (faulty Fails) (Unharmed options random fs₀)
      (do let initialized ← initializeStagingAt ⟨staging, options.masterKey⟩
            options.toAuthorityInit random draws
          finalizeStaging staging options initialized.recoveryRoot
          return initialized : FileTask AuthorityError InitializedAuthority)
      (Ends (fun _ fs' => Failed options random Calm Steady fs₀ fs') fun init fs' =>
        Unharmed options random fs₀ fs' ∧ Established options random fs' init) fs := by
  have hplain : ( Authority.initialize options.toAuthorityInit random).run serve Stores.empty =
      (initializeStaging options.toAuthorityInit random).run serve Stores.empty := by
    unfold Authority.initialize
    rw [hvalid]
    exact Task.run_lift_ok_bind _ _ _
  have hrefines : Refines (faulty Fails) Calm serve
      (initializeStagingAt ⟨staging, options.masterKey⟩ options.toAuthorityInit random draws)
      (initializeStaging options.toAuthorityInit random) (fun init result fs' w' =>
        result.2 = init ∧
          DataDirectory.Complete ⟨staging, options.masterKey⟩ fs' result.1 w') fs Stores.empty :=
    initializeStagingAt_refines hdir hempty (fun hc => (hcalm hc).2.1)
      fun hc => (hcalm hc).2.2.draws
  have hkeep : Always (faulty Fails) (fs.SameOutside staging) _ _ fs := always_around hdir
    (initializeStagingAt_only ⟨staging, options.masterKey⟩ options.toAuthorityInit random draws)
  refine Always.andThen (Q := fun init fs' => fs.SameOutside staging fs' ∧ ∃ manifest stores,
    ( Authority.initialize options.toAuthorityInit random).run serve Stores.empty =
        (.ok (manifest, init), stores) ∧
      DataDirectory.Complete ⟨staging, options.masterKey⟩ fs' manifest stores)
    ((Always.and hrefines hkeep).weaken ?_ ?_) ?_
  · intro fs' hfs'
    exact (hbegun.outside hfs'.2).unharmed hapart hstaging (.inl rfl)
  · rintro result fs' ⟨hresult, hsame⟩
    cases result with
    | error e =>
      refine ⟨(hbegun.outside hsame).unharmed hapart hstaging (.inl rfl), ?_, ?_⟩
      · intro hs
        exact (hbegun.outside hsame).restored hapart hstaging (hsteady hs).1 (.inl rfl)
      · intro hc
        obtain ⟨made, stores, hrun⟩ := (hcalm hc).2.2.planned
        exact hresult ⟨hc, made, stores, hplain.symm.trans hrun⟩
    | ok init =>
      obtain ⟨⟨manifest, init'⟩, stores, hrun, rfl, hcomplete⟩ := hresult
      exact ⟨hsame, manifest, stores, hplain.trans hrun, hcomplete⟩
  · rintro init fs₁ ⟨hsame, manifest, stores, hrun, hcomplete⟩
    have hparent₁ : fs₁.node options.dataDir.tail = some .dir := by
      rw [hsame _ (not_staging_of_above hstaging List.suffix_rfl)]
      exact hparent
    refine Always.andThen (finalizeStaging_always hapart hstaging (hbegun.outside hsame) hsteady
      hcalm hrun hparent₁ habsent hcomplete) ?_
    intro _ fs₂ hfs₂
    exact hfs₂

end Steady

/-- Every run of the initialization, with any of its requests failing and stopped at any point,
harms nothing. When it returns an error and no final step has failed, everything is restored; when
it returns, the data directory is new and complete. -/
theorem initializeAt_always (hapart : options.Apart draws)
    (hsteady : Steady → options.Unrelated ∧ ∀ r, FinalStep options draws r → ¬ Fails r)
    (hcalm : Calm → Steady ∧ (∀ r, ¬ Fails r) ∧ Ready options random draws fs) :
    Always (faulty Fails) (Unharmed options random fs)
      (Authority.initializeAt options random draws)
      (Ends (fun _ fs' => Failed options random Calm Steady fs fs') fun init fs' =>
        Unharmed options random fs fs' ∧ Established options random fs' init) fs := by
  have hunharmed : Unharmed options random fs fs := ⟨.inl fun _ _ => rfl, fun _ _ _ => rfl⟩
  have hrestored : Restored options fs fs := ⟨rfl, fun _ _ => rfl, fun _ _ => .inl rfl⟩
  unfold Authority.initializeAt
  refine Always.lift_andThen ?_ ?_
  · intro e hinvalid
    refine ⟨hunharmed, fun _ => hrestored, fun hc => ?_⟩
    obtain ⟨result, stores, hrun⟩ := (hcalm hc).2.2.planned
    unfold Authority.initialize at hrun
    rw [hinvalid] at hrun
    cases (Prod.mk.inj hrun).1
  intro _ hvalid
  refine Always.andThen (Q := fun found fs' => found = fs.present options.dataDir ∧ fs' = fs) ?_ ?_
  · refine Always.request ?_
    intro found fs' hstep
    rcases hstep with hserve | ⟨-, hbroken⟩
    · obtain ⟨rfl, rfl⟩ := Prod.mk.inj hserve
      exact ⟨hunharmed, rfl, rfl⟩
    · exact hbroken.elim
  rintro found fs' ⟨rfl, rfl⟩
  refine Always.lift_andThen ?_ ?_
  · intro e hfound
    refine ⟨hunharmed, fun _ => hrestored, fun hc => ?_⟩
    have habsent := (hcalm hc).2.2.dataDir
    unfold Files.present at hfound
    rw [habsent] at hfound
    cases hfound
  intro _ hfound
  have habsent : fs'.node options.dataDir = none := by
    have hnot := failIf_eq_ok.mp hfound
    unfold Files.present at hnot
    simpa using hnot
  have htarget : options.dataDir ≠ [] := by
    intro heq
    rw [heq] at habsent
    exact absurd (habsent.symm.trans fs'.root) (by simp)
  refine Always.lift_andThen ?_ ?_
  · intro e hroot
    rw [failIf, if_neg htarget] at hroot
    cases hroot
  intro _ _
  -- the directories above
  have hcalm₁ : Calm → ¬ Fails (.change (.createDirAll options.dataDir.tail)) ∧
      ∃ fs₁, fs'.createDirAll options.dataDir.tail = .ok fs₁ := by
    intro hc
    obtain ⟨-, hsafe, hready⟩ := hcalm hc
    exact ⟨hsafe _, Files.exists_createDirAll fun x hx => hready.above x (.inl hx)⟩
  refine Always.andThen (Q := fun _ fs₁ => fs'.DirsTo options.dataDir.tail fs₁ ∧
      fs₁.node options.dataDir.tail = some .dir)
    ((always_createDirAll hcalm₁).weaken (fun _ h => unharmed_of_dirsTo h htarget) ?_) ?_
  · intro result fs₁ hresult
    cases result with
    | error e =>
      exact ⟨unharmed_of_dirsTo hresult.1 htarget, fun hs => restored_of_dirsTo hresult.1 htarget (hsteady hs).1,
        hresult.2⟩
    | ok u => exact hresult
  rintro _ fs₁ ⟨hdirs, hparent⟩
  refine Always.lift_andThen ?_ ?_
  · intro e hname
    refine ⟨unharmed_of_dirsTo hdirs htarget, fun hs => restored_of_dirsTo hdirs htarget (hsteady hs).1, fun hc => ?_⟩
    obtain ⟨staging, hstaging, -⟩ := (hcalm hc).2.2.staging
    exact absurd (hname.symm.trans hstaging) (by simp)
  intro staging hstaging
  obtain ⟨hlength, hne, htail, hnil⟩ := stagingPath_eq_ok hstaging
  have hself : ¬ staging <:+ options.dataDir.tail :=
    not_above_of_below hnil List.suffix_rfl ∘ (htail ▸ ·)
  -- the staging directory
  refine always_change_andThen ?_ ?_
  · intro fs₂ happly
    have hcreate : fs₁.create .dir staging = .ok fs₂ := happly
    obtain ⟨-, hfree, hnode⟩ := Files.create_eq_ok.mp hcreate
    have hother : ∀ x, x ≠ staging → fs₂.node x = fs₁.node x := by
      intro x hx
      rw [hnode, Function.update_of_ne hx]
    have hbegun : Begun options staging fs' fs₂ := by
      intro x hx
      rw [hother x fun heq => hx (heq ▸ List.suffix_rfl)]
      exact hdirs x
    have hdir : fs₂.node staging = some .dir := by
      rw [hnode, Function.update_self]
    have hparent₂ : fs₂.node options.dataDir.tail = some .dir := by
      rw [hother _ fun heq => hself (heq ▸ List.suffix_rfl)]
      exact hparent
    have hempty : ∀ name, fs₂.node (name :: staging) = none := by
      intro name
      rw [hother _ (List.cons_ne_self name staging)]
      exact Files.child_eq_none (by rw [hfree]; simp) name
    refine ⟨hbegun.unharmed hapart hstaging (.inl rfl), ?_⟩
    refine Always.onError (fillStaging_always hapart hstaging hbegun hsteady hcalm hparent₂
      habsent hdir hempty hvalid) ?_
    intro e fs₃ hfailed ans fs₄ hstep
    have hsame : fs₃.SameOutside staging fs₄ := fun x hx =>
      step_of_untouched hstep id fun h => hx h
    obtain ⟨hunharmed₃, hrestored₃, hnot⟩ := hfailed
    have hunharmed₄ := hunharmed₃.outside hapart hstaging hsame
    exact ⟨hunharmed₄, hunharmed₄, fun hs => (hrestored₃ hs).outside hapart hstaging hsame, hnot⟩
  · intro e fs₂ hwhy
    have hsame : fs₂ = fs₁ := hwhy.elim And.left And.right
    subst hsame
    have hunharmed₂ : Unharmed options random fs' fs₂ := unharmed_of_dirsTo hdirs htarget
    refine ⟨hunharmed₂, hunharmed₂, fun hs => restored_of_dirsTo hdirs htarget (hsteady hs).1, fun hc => ?_⟩
    obtain ⟨-, hsafe, hready⟩ := hcalm hc
    rcases hwhy with ⟨-, herror⟩ | ⟨hfails, -⟩
    · -- the name is free, and its place is there
      obtain ⟨staging', hstaging', hfree⟩ := hready.staging
      obtain rfl := Except.ok.inj (hstaging.symm.trans hstaging')
      have hfree₂ : fs₂.node staging = none := by
        rw [hdirs.of_not_suffix hself]
        exact hfree
      obtain ⟨name, parent, rfl⟩ := List.exists_cons_of_ne_nil hnil
      obtain ⟨fs₃, hcreate⟩ := Files.exists_create .dir
        (show fs₂.node parent = some .dir from (congrArg fs₂.node htail).trans hparent) hfree₂
      exact absurd (hcreate.symm.trans herror) (by simp)
    · exact hsafe _ hfails

end Master

end Weaver
