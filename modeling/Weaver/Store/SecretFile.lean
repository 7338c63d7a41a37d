import Mathlib.Data.List.AList
import Weaver.Lib.FileRequests
import Weaver.Store.Stores

/-!
# Secrets in encrypted files

`EncryptedFileSecretStore` keeps every secret in a file of its own, encrypted under a master key that
is not in the directory. A secret is written to a temporary file, which is synced and then linked
under its final name, so that a name never stands for a part of a secret. The directory is related to
the secrets that it keeps (`EncryptedFileSecretStore.Keeps`), and `seal_sync` does there what
`SecretStore.seal` does to the secrets (`sealSync_yields`), whatever else fails.

The texts of the system's errors are left out.
-/

namespace Weaver

open Checked Wire Program FileSystem

/-! ## Files -/

abbrev FilePath := FileSystem.Path String

abbrev DataFiles := FileSystem.Files String StateStore

abbrev fileInterface : Interface := FileSystem.requests String StateStore

abbrev FileTask (ε α : Type) := Task fileInterface ε α

def byteDigits (byte : UInt8) : List Char :=
  [Nat.digitChar (byte.toNat / 16), Nat.digitChar (byte.toNat % 16)]

/-- `hex::encode`. -/
def hexEncode (bytes : Bytes) : String := String.ofList (bytes.flatMap byteDigits)

theorem byteDigits_injective {a b : UInt8} (h : byteDigits a = byteDigits b) : a = b := by
  have hdigit : ∀ m < 16, ∀ n < 16, Nat.digitChar m = Nat.digitChar n → m = n := by decide
  obtain ⟨hhigh, hlow⟩ := List.cons.inj h
  have hlow' := (List.cons.inj hlow).1
  have ha := a.toNat_lt
  have hb := b.toNat_lt
  have hdiv := hdigit _ (by omega) _ (by omega) hhigh
  have hmod := hdigit _ (by omega) _ (by omega) hlow'
  exact UInt8.toNat_inj.mp (by omega)

theorem hexEncode_injective {a b : Bytes} (h : hexEncode a = hexEncode b) : a = b := by
  have hchars : a.flatMap byteDigits = b.flatMap byteDigits := by
    rw [← String.toList_ofList (l := a.flatMap byteDigits),
      ← String.toList_ofList (l := b.flatMap byteDigits)]
    exact congrArg String.toList h
  clear h
  induction a generalizing b with
  | nil =>
    cases b with
    | nil => rfl
    | cons y b => simp [byteDigits] at hchars
  | cons x a ih =>
    cases b with
    | nil => simp [byteDigits] at hchars
    | cons y b =>
      rw [List.flatMap_cons, List.flatMap_cons] at hchars
      obtain ⟨hbyte, hrest⟩ := List.append_inj hchars rfl
      rw [byteDigits_injective hbyte, ih hrest]

/-! ## The store -/

/-- AES-256-GCM, with what honest use of it is promised. -/
class FileCipher where
  /-- Encryption, of the key, the nonce, the associated data and the message. -/
  encrypt : Bytes32 → BytesN 12 → Bytes → Bytes → Option Bytes
  /-- Decryption, of the key, the nonce, the associated data and the ciphertext. -/
  decrypt : Bytes32 → BytesN 12 → Bytes → Bytes → Option Bytes
  decrypt_encrypt : ∀ k n aad m c, encrypt k n aad m = some c → decrypt k n aad c = some m
  length : ∀ k n aad m c, encrypt k n aad m = some c → c.length = m.length + 16
  encrypts : ∀ k n aad m, aad.length ≤ 2^36 → m.length ≤ 2^36 → (encrypt k n aad m).isSome = true

structure EncryptedFileSecretStore where
  directory : FilePath
  masterKey : Bytes32

/-- `FILE_MAGIC`. -/
def secretFileMagic : Bytes := utf8 "WVRSEC\x00\x01"

structure SecretDraws where
  nonce : Option (BytesN 12)
  suffix : Option (BytesN 16)

def associatedData (id : SecretId) : Bytes := secretFileMagic ++ id.val

def secretBackend (_ : IoError) : SecretStoreError := .backend "I/O error"

namespace EncryptedFileSecretStore

def pathFor (self : EncryptedFileSecretStore) (id : SecretId) : FilePath :=
  (hexEncode id.val ++ ".wvs") :: self.directory

def tempPath (self : EncryptedFileSecretStore) (suffix : BytesN 16) : FilePath :=
  (".secret-" ++ hexEncode suffix.val ++ ".tmp") :: self.directory

/-- `EncryptedFileSecretStore::open`. -/
def openDirectory (self : EncryptedFileSecretStore) : FileTask SecretStoreError Unit :=
  change secretBackend (.createDirAll self.directory)

section

variable [FileCipher]

def decode (self : EncryptedFileSecretStore) (id : SecretId) (bytes : Bytes) :
    Except SecretStoreError Bytes :=
  if h : secretFileMagic.length + 12 + 16 ≤ bytes.length ∧
      bytes.take secretFileMagic.length = secretFileMagic then
    okOr (FileCipher.decrypt self.masterKey
      ⟨(bytes.drop secretFileMagic.length).take 12, by
        rw [List.length_take, List.length_drop]
        omega⟩
      (associatedData id) (bytes.drop (secretFileMagic.length + 12))) .authenticationFailed
  else .error .authenticationFailed

def openSync (self : EncryptedFileSecretStore) (id : SecretId) : FileTask SecretStoreError Bytes := do
  match ← tryRead (self.pathFor id) with
  | .ok bytes => Task.lift (self.decode id bytes)
  | .error .notFound => Task.lift (.error .notFound)
  | .error e => Task.lift (.error (secretBackend e))

def compareExisting (self : EncryptedFileSecretStore) (id : SecretId) (plaintext : Bytes) :
    FileTask SecretStoreError Unit := do
  let existing ← self.openSync id
  Task.lift (failIf (existing ≠ plaintext) .alreadyExistsDifferent)

/-- What `seal_sync` writes, before it removes the temporary file. -/
def writeSecret (self : EncryptedFileSecretStore) (id : SecretId) (plaintext : Bytes)
    (temp : FilePath) (nonce : BytesN 12) (ciphertext : Bytes) :
    FileTask SecretStoreError Unit := do
  writeNew secretBackend temp [secretFileMagic, nonce.val, ciphertext]
  match ← tryChange (.link temp (self.pathFor id)) with
  | .ok () => change secretBackend (.syncDir self.directory)
  | .error .alreadyExists => self.compareExisting id plaintext
  | .error e => Task.lift (.error (secretBackend e))

def sealSync (self : EncryptedFileSecretStore) (draws : SecretDraws) (id : SecretId)
    (plaintext : Bytes) : FileTask SecretStoreError Unit := do
  if ← FileSystem.present (self.pathFor id) then
    self.compareExisting id plaintext
  else
    let nonce ← Task.lift (okOr draws.nonce (.backend "randomness unavailable"))
    let ciphertext ← Task.lift (okOr
      (FileCipher.encrypt self.masterKey nonce (associatedData id) plaintext) .authenticationFailed)
    let suffix ← Task.lift (okOr draws.suffix (.backend "randomness unavailable"))
    (self.writeSecret id plaintext (self.tempPath suffix) nonce ciphertext).thenAlways
      (.change (.removeFile (self.tempPath suffix)))

def deleteSync (self : EncryptedFileSecretStore) (id : SecretId) :
    FileTask SecretStoreError Unit := do
  match ← tryChange (.removeFile (self.pathFor id)) with
  | .ok () => change secretBackend (.syncDir self.directory)
  | .error .notFound => pure ()
  | .error e => Task.lift (.error (secretBackend e))

/-! ## What the directory keeps -/

structure Keeps (store : EncryptedFileSecretStore) (fs : DataFiles) (s : SecretStore) : Prop where
  directory : fs.node store.directory = some .dir
  secret : ∀ id secret, s.secrets.lookup id = some secret →
    ∃ bytes, fs.node (store.pathFor id) = some (.file (.bytes bytes) true) ∧
      store.decode id bytes = .ok secret
  absent : ∀ id, s.secrets.lookup id = none → fs.node (store.pathFor id) = none

variable {self : EncryptedFileSecretStore} {fs fs' : DataFiles} {s : SecretStore} {id : SecretId}
  {plaintext : Bytes}

omit [FileCipher] in
theorem pathFor_injective {id id' : SecretId} (h : self.pathFor id = self.pathFor id') :
    id = id' := by
  have hname := congrArg String.toList (List.cons.inj h).1
  rw [String.toList_append, String.toList_append] at hname
  exact Subtype.ext (hexEncode_injective (String.toList_inj.mp (List.append_cancel_right hname)))

omit [FileCipher] in
theorem pathFor_ne_tempPath (self : EncryptedFileSecretStore) (id : SecretId)
    (suffix : BytesN 16) :
    self.pathFor id ≠ self.tempPath suffix := by
  intro h
  have hname := congrArg String.toList (List.cons.inj h).1
  rw [String.toList_append, String.toList_append] at hname
  exact absurd (List.append_inj_right' hname (by simp)) (by decide)

omit [FileCipher] in
theorem directory_suffix (self : EncryptedFileSecretStore) (id : SecretId) :
    self.directory <:+ self.pathFor id := List.suffix_cons _ _

omit [FileCipher] in
theorem directory_suffix_temp (self : EncryptedFileSecretStore) (suffix : BytesN 16) :
    self.directory <:+ self.tempPath suffix := List.suffix_cons _ _

omit [FileCipher] in
theorem directory_ne_pathFor (self : EncryptedFileSecretStore) (id : SecretId) :
    self.directory ≠ self.pathFor id := (List.cons_ne_self _ self.directory).symm

omit [FileCipher] in
theorem directory_ne_tempPath (self : EncryptedFileSecretStore) (suffix : BytesN 16) :
    self.directory ≠ self.tempPath suffix := (List.cons_ne_self _ self.directory).symm

theorem decode_encrypted {nonce : BytesN 12} {ciphertext : Bytes}
    (h : FileCipher.encrypt self.masterKey nonce (associatedData id) plaintext =
      some ciphertext) :
    self.decode id [secretFileMagic, nonce.val, ciphertext].flatten = .ok plaintext := by
  have hbytes : [secretFileMagic, nonce.val, ciphertext].flatten =
      secretFileMagic ++ (nonce.val ++ ciphertext) := by simp
  have hlength := FileCipher.length _ _ _ _ _ h
  have hnonce := nonce.property
  have hlong : secretFileMagic.length + 12 + 16 ≤
      (secretFileMagic ++ (nonce.val ++ ciphertext)).length := by
    rw [List.length_append, List.length_append]
    omega
  have hdrop : (secretFileMagic ++ (nonce.val ++ ciphertext)).drop secretFileMagic.length =
      nonce.val ++ ciphertext := List.drop_left
  have hrest : (secretFileMagic ++ (nonce.val ++ ciphertext)).drop
      (secretFileMagic.length + 12) = ciphertext := by
    rw [← List.drop_drop, hdrop, List.drop_left' hnonce]
  rw [hbytes]
  unfold decode
  rw [dif_pos ⟨hlong, List.take_left⟩, okOr_eq_ok]
  simp only [hdrop, hrest, List.take_left' hnonce]
  exact FileCipher.decrypt_encrypt _ _ _ _ _ h

theorem Keeps.congr (h : self.Keeps fs s) (hdirectory : fs'.node self.directory = some .dir)
    (hsame : ∀ id, fs'.node (self.pathFor id) = fs.node (self.pathFor id)) : self.Keeps fs' s := by
  refine ⟨hdirectory, ?_, ?_⟩
  · intro id secret hlookup
    rw [hsame]
    exact h.secret id secret hlookup
  · intro id hlookup
    rw [hsame]
    exact h.absent id hlookup

theorem Keeps.insert (h : self.Keeps fs s) (hdirectory : fs'.node self.directory = some .dir)
    {bytes : Bytes} (hnew : fs'.node (self.pathFor id) = some (.file (.bytes bytes) true))
    (hdecode : self.decode id bytes = .ok plaintext)
    (hsame : ∀ id', id' ≠ id → fs'.node (self.pathFor id') = fs.node (self.pathFor id')) :
    self.Keeps fs' ⟨s.secrets.insert id plaintext⟩ := by
  refine ⟨hdirectory, ?_, ?_⟩
  · intro id' secret hlookup
    by_cases hid : id' = id
    · subst hid
      rw [AList.lookup_insert] at hlookup
      obtain rfl := Option.some.inj hlookup
      exact ⟨bytes, hnew, hdecode⟩
    · rw [AList.lookup_insert_ne hid] at hlookup
      rw [hsame id' hid]
      exact h.secret id' secret hlookup
  · intro id' hlookup
    have hid : id' ≠ id := by
      intro hid
      rw [hid, AList.lookup_insert] at hlookup
      cases hlookup
    rw [AList.lookup_insert_ne hid] at hlookup
    rw [hsame id' hid]
    exact h.absent id' hlookup

theorem Keeps.delete (h : self.Keeps fs s) (hdirectory : fs'.node self.directory = some .dir)
    (hgone : fs'.node (self.pathFor id) = none)
    (hsame : ∀ id', id' ≠ id → fs'.node (self.pathFor id') = fs.node (self.pathFor id')) :
    self.Keeps fs' (s.delete id) := by
  refine ⟨hdirectory, ?_, ?_⟩
  · intro id' secret hlookup
    have hid : id' ≠ id := by
      intro hid
      rw [hid] at hlookup
      exact absurd (hlookup.symm.trans (AList.lookup_erase id s.secrets)) (by simp)
    rw [hsame id' hid]
    exact h.secret id' secret ((AList.lookup_erase_ne hid).symm.trans hlookup)
  · intro id' hlookup
    by_cases hid : id' = id
    · rw [hid]
      exact hgone
    · rw [hsame id' hid]
      exact h.absent id' ((AList.lookup_erase_ne hid).symm.trans hlookup)

theorem Keeps.crash (h : self.Keeps fs s) (hcrash : fs.Crash fs') : self.Keeps fs' s := by
  have hkept : ∀ x, (∀ content, fs.node x ≠ some (.file content false)) →
      fs'.node x = fs.node x := by
    intro x hx
    rcases hcrash x with hsame | ⟨content, _, _, hfile, -⟩
    · exact hsame
    · exact absurd hfile (hx content)
  refine h.congr ?_ ?_
  · rw [hkept]
    · exact h.directory
    · intro content
      rw [h.directory]
      simp
  · intro id
    refine hkept _ ?_
    intro content
    cases hlookup : s.secrets.lookup id with
    | none =>
      rw [h.absent id hlookup]
      simp
    | some secret =>
      obtain ⟨bytes, hfile, -⟩ := h.secret id secret hlookup
      rw [hfile]
      simp

/-! ## What sealing does -/

variable {Fails : FileSystem.Request String StateStore → Prop} {Calm : Prop}

theorem openSync_yields (h : self.Keeps fs s) {secret : Bytes}
    (hlookup : s.secrets.lookup id = some secret) (hsafe : Calm → ∀ r, ¬ Fails r) :
    Yields (faulty Fails) Calm (self.openSync id) (fun opened fs' => opened = secret ∧ fs' = fs)
      fs := by
  obtain ⟨bytes, hfile, hdecode⟩ := h.secret id secret hlookup
  have hread : fs.read (self.pathFor id) = .ok bytes := by
    unfold Files.read
    rw [hfile]
  refine Yields.andThen tryRead_yields ?_
  rintro result fs' ⟨rfl, hresult | ⟨hfails, hresult⟩⟩
  · rw [hresult, hread]
    change Yields _ _ (Task.lift (self.decode id bytes)) _ _
    rw [hdecode]
    exact ⟨rfl, rfl⟩
  · rw [hresult]
    exact fun hcalm => hsafe hcalm _ hfails

theorem compareExisting_yields (h : self.Keeps fs s) {secret : Bytes}
    (hlookup : s.secrets.lookup id = some secret) (hsafe : Calm → ∀ r, ¬ Fails r)
    (hsame : Calm → secret = plaintext) :
    Yields (faulty Fails) Calm (self.compareExisting id plaintext)
      (fun _ fs' => secret = plaintext ∧ fs' = fs) fs := by
  refine Yields.andThen (openSync_yields h hlookup hsafe) ?_
  rintro opened fs' ⟨rfl, rfl⟩
  by_cases heq : opened = plaintext
  · rw [failIf_neg (not_not.mpr heq)]
    exact ⟨heq, rfl⟩
  · rw [failIf_pos heq]
    exact fun hcalm => heq (hsame hcalm)

theorem writeSecret_yields (h : self.Keeps fs s) (hlookup : s.secrets.lookup id = none)
    {nonce : BytesN 12} {ciphertext : Bytes} {suffix : BytesN 16}
    (hencrypt : FileCipher.encrypt self.masterKey nonce (associatedData id) plaintext =
      some ciphertext)
    (hsafe : Calm → ∀ r, ¬ Fails r)
    (hfresh : Calm → fs.node (self.tempPath suffix) = none) :
    Yields (faulty Fails) Calm
      (self.writeSecret id plaintext (self.tempPath suffix) nonce ciphertext)
      (fun _ fs' => ∃ bytes, self.decode id bytes = .ok plaintext ∧
        fs'.node = Function.update
          (Function.update fs.node (self.tempPath suffix) (some (.file (.bytes bytes) true)))
          (self.pathFor id) (some (.file (.bytes bytes) true))) fs := by
  have hne := self.pathFor_ne_tempPath id suffix
  refine Yields.andThen (writeNew_yields hsafe ?_) ?_
  · intro hcalm
    exact Files.exists_create _ h.directory (hfresh hcalm)
  rintro _ fs₁ ⟨-, hnode₁⟩
  have hdirectory : fs₁.node self.directory = some .dir := by
    rw [hnode₁, Function.update_of_ne (directory_ne_tempPath self suffix)]
    exact h.directory
  have habsent : fs₁.node (self.pathFor id) = none := by
    rw [hnode₁, Function.update_of_ne hne]
    exact h.absent id hlookup
  have htemp : fs₁.node (self.tempPath suffix) =
      some (.file (.bytes [secretFileMagic, nonce.val, ciphertext].flatten) true) := by
    rw [hnode₁, Function.update_self]
  -- the link is refused by nobody: there is room for the name
  obtain ⟨fs₂, hcreate⟩ : ∃ fs₂, fs₁.create
      (.file (.bytes [secretFileMagic, nonce.val, ciphertext].flatten) true) (self.pathFor id) =
        .ok fs₂ := Files.exists_create _ hdirectory habsent
  have hlink : Change.apply fs₁ (.link (self.tempPath suffix) (self.pathFor id)) = .ok fs₂ :=
    Files.link_eq_ok.mpr ⟨_, _, htemp, hcreate⟩
  refine Yields.andThen tryChange_yields ?_
  intro result fs₃ hresult
  rcases hresult with ⟨rfl, hok⟩ | ⟨e, rfl, ⟨-, herror⟩ | ⟨hfails, rfl, -⟩⟩
  · obtain rfl := Except.ok.inj (hlink.symm.trans hok)
    obtain ⟨-, -, hnode₂⟩ := Files.create_eq_ok.mp hcreate
    have hdirectory₂ : fs₂.node self.directory = some .dir := by
      rw [hnode₂, Function.update_of_ne (directory_ne_pathFor self id)]
      exact hdirectory
    refine (change_yields ?_).weaken (fun hcalm => hcalm) ?_
    · intro hcalm
      exact ⟨hsafe hcalm _, fs₂, Files.syncDir_eq_ok.mpr ⟨hdirectory₂, rfl⟩⟩
    · intro _ fs₄ hsync
      obtain ⟨-, rfl⟩ := Files.syncDir_eq_ok.mp hsync
      exact ⟨_, decode_encrypted hencrypt, by rw [hnode₂, hnode₁]⟩
  · exact absurd (hlink.symm.trans herror) (by simp)
  · exact fun hcalm => hsafe hcalm _ hfails

/-- Sealing a secret does to the directory what it does to the secrets. Where nothing fails, it
succeeds as `SecretStore.seal` does, and leaves no temporary file. -/
theorem sealSync_yields (h : self.Keeps fs s) {draws : SecretDraws}
    (hsafe : Calm → ∀ r, ¬ Fails r)
    (hdraws : Calm → draws.nonce.isSome = true ∧ draws.suffix.isSome = true)
    (hlength : plaintext.length ≤ 2^36)
    (hfresh : Calm → ∀ suffix, fs.node (self.tempPath suffix) = none)
    (hseal : Calm → (s.seal id plaintext).1 = .ok ()) :
    Yields (faulty Fails) Calm (self.sealSync draws id plaintext)
      (fun _ fs' => (s.seal id plaintext).1 = .ok () ∧ self.Keeps fs' (s.seal id plaintext).2 ∧
        (Calm → ∀ suffix, fs'.node (self.tempPath suffix) = none)) fs := by
  refine Yields.andThen present_yields ?_
  rintro found fs₀ ⟨rfl, rfl⟩
  cases hlookup : s.secrets.lookup id with
  | some secret =>
    obtain ⟨bytes, hfile, -⟩ := h.secret id secret hlookup
    have hpresent : fs₀.present (self.pathFor id) = true := by
      unfold Files.present
      rw [hfile]
      rfl
    have hsealed : ∀ heq : secret = plaintext, s.seal id plaintext = (.ok (), s) := by
      intro heq
      unfold SecretStore.seal
      rw [hlookup]
      exact if_pos heq
    have hsame : (s.seal id plaintext).1 = .ok () → secret = plaintext := by
      intro hok
      by_contra hne
      unfold SecretStore.seal at hok
      rw [hlookup] at hok
      dsimp only at hok
      rw [if_neg hne] at hok
      cases hok
    rw [if_pos hpresent]
    refine (compareExisting_yields h hlookup hsafe fun hcalm => hsame (hseal hcalm)).weaken
      (fun hcalm => hcalm) ?_
    rintro _ fs₁ ⟨heq, rfl⟩
    rw [hsealed heq]
    exact ⟨rfl, h, hfresh⟩
  | none =>
    have habsent : ¬ fs₀.present (self.pathFor id) = true := by
      unfold Files.present
      rw [h.absent id hlookup]
      simp
    have hsealed : s.seal id plaintext = (.ok (), ⟨s.secrets.insert id plaintext⟩) := by
      unfold SecretStore.seal
      rw [hlookup]
    rw [if_neg habsent]
    refine Yields.lift_andThen ?_ ?_
    · intro hcalm
      obtain ⟨nonce, hnonce⟩ := Option.isSome_iff_exists.mp (hdraws hcalm).1
      exact ⟨nonce, okOr_eq_ok.mpr hnonce⟩
    intro nonce _
    have haad : (associatedData id).length ≤ 2^36 := by
      unfold associatedData
      rw [List.length_append, id.property]
      decide
    obtain ⟨ciphertext, hencrypt⟩ := Option.isSome_iff_exists.mp
      (FileCipher.encrypts self.masterKey nonce (associatedData id) plaintext haad hlength)
    rw [hencrypt]
    change Yields _ _ (Task.lift (okOr draws.suffix _) >>= _) _ _
    refine Yields.lift_andThen ?_ ?_
    · intro hcalm
      obtain ⟨suffix, hsuffix⟩ := Option.isSome_iff_exists.mp (hdraws hcalm).2
      exact ⟨suffix, okOr_eq_ok.mpr hsuffix⟩
    intro suffix _
    refine (writeSecret_yields h hlookup hencrypt hsafe fun hcalm =>
      hfresh hcalm suffix).thenAlways ?_
    intro _ fs₁ hfs₁ ans fs₂ hstep
    obtain ⟨bytes, hdecode, hnode₁⟩ := hfs₁
    have hkeep : ∀ x, x ≠ self.tempPath suffix → fs₂.node x = fs₁.node x := by
      intro x hx
      exact step_of_untouched hstep (fun hcreates => hcreates) fun halters => hx halters
    rw [hsealed]
    refine ⟨rfl, h.insert ?_ ?_ hdecode ?_, ?_⟩
    · rw [hkeep _ (self.directory_ne_tempPath suffix), hnode₁,
        Function.update_of_ne (self.directory_ne_pathFor id),
        Function.update_of_ne (self.directory_ne_tempPath suffix)]
      exact h.directory
    · rw [hkeep _ (self.pathFor_ne_tempPath id suffix), hnode₁, Function.update_self]
    · intro id' hid
      rw [hkeep _ (self.pathFor_ne_tempPath id' suffix), hnode₁,
        Function.update_of_ne fun heq => hid (pathFor_injective heq),
        Function.update_of_ne (self.pathFor_ne_tempPath id' suffix)]
    · intro hcalm suffix'
      have htemp : fs₁.node (self.tempPath suffix) = some (.file (.bytes bytes) true) := by
        rw [hnode₁, Function.update_of_ne (self.pathFor_ne_tempPath id suffix).symm,
          Function.update_self]
      obtain ⟨fs₃, hremove⟩ := Files.exists_removeFile htemp
      have hremoved := (Files.removeFile_eq_ok.mp hremove).2
      rcases step_change hstep with ⟨-, hok⟩ | ⟨e, -, ⟨-, herror⟩ | ⟨hfails, -⟩⟩
      · obtain rfl := Except.ok.inj (hremove.symm.trans hok)
        by_cases hsuffix : self.tempPath suffix' = self.tempPath suffix
        · rw [hremoved, hsuffix, Function.update_self]
        · rw [hremoved, Function.update_of_ne hsuffix, hnode₁,
            Function.update_of_ne (self.pathFor_ne_tempPath id suffix').symm,
            Function.update_of_ne hsuffix]
          exact hfresh hcalm suffix'
      · exact absurd (hremove.symm.trans herror) (by simp)
      · exact absurd hfails (hsafe hcalm _)

/-! ## Where sealing acts -/

theorem compareExisting_only (self : EncryptedFileSecretStore) (id : SecretId)
    (plaintext : Bytes) (d : FilePath) :
    Prog.Only (FileSystem.Request.Below d) (self.compareExisting id plaintext) := by
  refine Prog.Only.andThen (Prog.Only.andThen ?_ ?_) fun _ => trivial
  · exact ⟨FileSystem.Request.below_read _ _, fun _ => trivial⟩
  · intro result
    rcases result with (_ | _ | _) | _ <;> trivial

theorem writeSecret_only (self : EncryptedFileSecretStore) (id : SecretId) (plaintext : Bytes)
    (suffix : BytesN 16) (nonce : BytesN 12) (ciphertext : Bytes) :
    Prog.Only (FileSystem.Request.Below self.directory)
      (self.writeSecret id plaintext (self.tempPath suffix) nonce ciphertext) := by
  have htemp := self.directory_suffix_temp suffix
  refine Prog.Only.andThen (writeNew_only ?_ ?_ ?_ _) fun _ => ?_
  · rintro x (rfl | h)
    · exact htemp
    · exact h.elim
  · rintro b x (h | rfl)
    · exact h.elim
    · exact htemp
  · rintro x (h | rfl)
    · exact h.elim
    · exact htemp
  refine Prog.Only.andThen ⟨?_, fun _ => trivial⟩ ?_
  · rintro x (rfl | h)
    · exact self.directory_suffix id
    · exact h.elim
  · intro result
    rcases result with (_ | _ | _) | _
    · exact self.compareExisting_only id plaintext _
    · trivial
    · trivial
    · refine change_only ?_
      rintro x (h | h) <;> exact h.elim

theorem sealSync_only (self : EncryptedFileSecretStore) (draws : SecretDraws) (id : SecretId)
    (plaintext : Bytes) :
    Prog.Only (FileSystem.Request.Below self.directory) (self.sealSync draws id plaintext) := by
  refine Prog.Only.andThen ⟨FileSystem.Request.below_present _ _, fun _ => trivial⟩ ?_
  intro found
  cases found with
  | true => exact self.compareExisting_only id plaintext _
  | false =>
    refine Prog.Only.lift_andThen fun nonce _ => Prog.Only.lift_andThen fun ciphertext _ =>
      Prog.Only.lift_andThen fun suffix _ => ?_
    refine (self.writeSecret_only id plaintext suffix nonce ciphertext).bind fun _ =>
      ⟨?_, fun _ => trivial⟩
    rintro x (h | rfl)
    · exact h.elim
    · exact self.directory_suffix_temp suffix

end

end EncryptedFileSecretStore

end Weaver
