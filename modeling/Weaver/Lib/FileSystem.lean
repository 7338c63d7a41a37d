import Mathlib.Data.List.Infix
import Mathlib.Logic.Function.Basic
import Weaver.Lib.Checked

/-!
# A filesystem

A tree of directories and files, and its operations, each with what its success amounts to. An
operation takes effect at once and as a whole, and directories survive a crash. What a file holds
survives a crash only when the file was synced after its last write (`Files.Crash`).

A rename refuses any target that exists. (The system's replaces an empty directory.) A second link
to a file is a copy of it: files are not written once they have two names.
-/

namespace FileSystem

open Checked

/-- A path: its names, from the last one up to the root. -/
abbrev Path (ν : Type) := List ν

/-- What a file holds: bytes, or a database that is committed to as a whole. -/
inductive Content (δ : Type) where
  | bytes (b : List UInt8)
  | database (d : δ)

/-- A directory, or a file and whether it was synced since its last write. -/
inductive Node (δ : Type) where
  | dir
  | file (content : Content δ) (synced : Bool)

inductive IoError where
  | alreadyExists
  | notFound
  | other
deriving DecidableEq

/-- A filesystem: what is at each path. What is above anything is a directory. -/
structure Files (ν δ : Type) where
  node : Path ν → Option (Node δ)
  root : node [] = some .dir
  above : ∀ name p, (node (name :: p)).isSome = true → node p = some .dir

namespace Files

variable {ν δ : Type} {fs fs' : Files ν δ} {p q x : Path ν}

theorem ext_node (h : fs.node = fs'.node) : fs = fs' := by
  cases fs
  cases fs'
  cases h
  rfl

def present (fs : Files ν δ) (p : Path ν) : Bool := (fs.node p).isSome

def isDir (fs : Files ν δ) (p : Path ν) : Bool :=
  match fs.node p with
  | some .dir => true
  | _ => false

theorem isDir_iff : fs.isDir p = true ↔ fs.node p = some .dir := by
  unfold isDir
  split
  · next h => exact iff_of_true rfl h
  · next h => exact iff_of_false Bool.false_ne_true fun h' => h h'

def read (fs : Files ν δ) (p : Path ν) : Except IoError (List UInt8) :=
  match fs.node p with
  | some (.file (.bytes b) _) => .ok b
  | some _ => .error .other
  | none => .error .notFound

def load (fs : Files ν δ) (p : Path ν) : Except IoError δ :=
  match fs.node p with
  | some (.file (.database d) _) => .ok d
  | some _ => .error .other
  | none => .error .notFound

theorem child_eq_none (h : fs.node p ≠ some .dir) (name : ν) : fs.node (name :: p) = none := by
  by_contra hne
  exact h (fs.above name p (Option.isSome_iff_ne_none.mpr hne))

theorem dir_of_suffix (h : (fs.node q).isSome = true) (hsuffix : p <:+ q) (hne : p ≠ q) :
    fs.node p = some .dir := by
  obtain ⟨t, rfl⟩ := hsuffix
  induction t with
  | nil => exact absurd rfl hne
  | cons name t ih =>
    have hdir := fs.above name (t ++ p) h
    by_cases ht : t = []
    · rw [ht] at hdir
      exact hdir
    · refine ih ?_ ?_
      · rw [hdir]
        rfl
      · intro heq
        exact ht (List.self_eq_append_left.mp heq)

theorem node_of_suffix (h : fs.node q = some .dir) (hsuffix : p <:+ q) : fs.node p = some .dir := by
  by_cases heq : p = q
  · rw [heq]
    exact h
  · exact dir_of_suffix (by rw [h]; rfl) hsuffix heq

theorem not_suffix_of_ne (hlength : p.length = q.length) (hne : p ≠ q) (hp : p <:+ x) :
    ¬ q <:+ x := by
  intro hq
  have hpq := List.suffix_of_suffix_length_le hp hq (le_of_eq hlength)
  exact hne (hpq.eq_of_length hlength)

theorem eq_none_of_suffix (h : fs.node p = none) (hsuffix : p <:+ q) : fs.node q = none := by
  by_contra hne
  by_cases heq : p = q
  · exact hne (heq ▸ h)
  · have hdir := dir_of_suffix (Option.isSome_iff_ne_none.mpr hne) hsuffix heq
    exact absurd (h.symm.trans hdir) (by simp)

/-- A crash keeps the directories, and the files that were synced; the others may hold anything. -/
def Crash (fs fs' : Files ν δ) : Prop :=
  ∀ x, fs'.node x = fs.node x ∨
    ∃ content content' synced, fs.node x = some (.file content false) ∧
      fs'.node x = some (.file content' synced)

/-- The second filesystem is as the first, except at and below the path. -/
def SameOutside (fs : Files ν δ) (d : Path ν) (fs' : Files ν δ) : Prop :=
  ∀ x, ¬ d <:+ x → fs'.node x = fs.node x

/-- The second filesystem has more than the first: directories, at the path and above it. -/
def DirsTo (fs : Files ν δ) (p : Path ν) (fs' : Files ν δ) : Prop :=
  ∀ x, fs'.node x = fs.node x ∨ x <:+ p ∧ fs.node x = none ∧ fs'.node x = some .dir

/-- The second filesystem has more than the first: something at the path, and directories above
it. -/
def GrownTo (fs : Files ν δ) (p : Path ν) (fs' : Files ν δ) : Prop :=
  ∀ x, fs'.node x = fs.node x ∨
    x <:+ p ∧ fs.node x = none ∧ (x ≠ p → fs'.node x = some .dir)

theorem DirsTo.refl (fs : Files ν δ) (p : Path ν) : fs.DirsTo p fs := fun _ => .inl rfl

theorem DirsTo.mono (h : fs.DirsTo p fs') (hsuffix : p <:+ q) : fs.DirsTo q fs' :=
  fun x => (h x).imp id fun hnew => ⟨hnew.1.trans hsuffix, hnew.2⟩

theorem DirsTo.grownTo (h : fs.DirsTo p fs') (hsuffix : p <:+ q) : fs.GrownTo q fs' :=
  fun x => (h x).imp id fun hnew => ⟨hnew.1.trans hsuffix, hnew.2.1, fun _ => hnew.2.2⟩

theorem GrownTo.refl (fs : Files ν δ) (p : Path ν) : fs.GrownTo p fs := fun _ => .inl rfl

theorem GrownTo.trans {fs₁ : Files ν δ} (h : fs.GrownTo p fs₁) (h' : fs₁.GrownTo p fs') :
    fs.GrownTo p fs' := by
  intro x
  rcases h' x with hsame | ⟨hx, habsent, hdir⟩
  · rw [hsame]
    exact h x
  · rcases h x with hsame' | ⟨-, habsent', -⟩
    · exact .inr ⟨hx, hsame'.symm.trans habsent, hdir⟩
    · exact .inr ⟨hx, habsent', hdir⟩

theorem GrownTo.of_present (h : fs.GrownTo p fs') (hx : (fs.node x).isSome = true) :
    fs'.node x = fs.node x := by
  refine (h x).resolve_right fun hnew => ?_
  rw [hnew.2.1] at hx
  cases hx

theorem GrownTo.of_not_suffix (h : fs.GrownTo p fs') (hx : ¬ x <:+ p) : fs'.node x = fs.node x :=
  (h x).resolve_right fun hnew => hx hnew.1

theorem DirsTo.of_not_suffix (h : fs.DirsTo p fs') (hx : ¬ x <:+ p) : fs'.node x = fs.node x :=
  (h x).resolve_right fun hnew => hx hnew.1

variable [DecidableEq ν]

/-- The filesystem with another node at a path, whose place in the tree it fits. -/
def set (fs : Files ν δ) (p : Path ν) (n : Node δ)
    (hparent : ∀ name q, p = name :: q → fs.node q = some .dir) (hroot : p = [] → n = .dir)
    (hleaf : n = .dir ∨ ∀ name, fs.node (name :: p) = none) : Files ν δ where
  node := Function.update fs.node p (some n)
  root := by
    by_cases h : p = []
    · rw [h, Function.update_self, hroot h]
    · rw [Function.update_of_ne (Ne.symm h)]
      exact fs.root
  above name q hsome := by
    by_cases hq : q = p
    · -- below the node itself
      rcases hleaf with rfl | hleaf
      · rw [hq, Function.update_self]
      · rw [hq, Function.update_of_ne (List.cons_ne_self name p), hleaf name] at hsome
        cases hsome
    · rw [Function.update_of_ne hq]
      by_cases hp : name :: q = p
      · exact hparent name q hp.symm
      · rw [Function.update_of_ne hp] at hsome
        exact fs.above name q hsome

/-- A new node, where there is nothing yet in a directory. -/
def create (fs : Files ν δ) (n : Node δ) : Path ν → Except IoError (Files ν δ)
  | [] => .error .alreadyExists
  | name :: p =>
    if hdir : fs.isDir p = true then
      if habsent : fs.node (name :: p) = none then
        .ok (fs.set (name :: p) n
          (fun _ _ heq => (List.cons.inj heq).2 ▸ isDir_iff.mp hdir)
          (fun heq => absurd heq (List.cons_ne_nil _ _))
          (.inr fun _ => child_eq_none (by rw [habsent]; simp) _))
      else .error .alreadyExists
    else .error .notFound

theorem create_eq_ok {n : Node δ} : fs.create n p = .ok fs' ↔
    (∃ name q, p = name :: q ∧ fs.node q = some .dir) ∧ fs.node p = none ∧
      fs'.node = Function.update fs.node p (some n) := by
  unfold create
  constructor
  · intro h
    split at h
    · cases h
    · next name q =>
      split at h
      · next hdir =>
        split at h
        · next habsent =>
          obtain rfl := Except.ok.inj h
          exact ⟨⟨name, q, rfl, isDir_iff.mp hdir⟩, habsent, rfl⟩
        · cases h
      · cases h
  · rintro ⟨⟨name, q, rfl, hdir⟩, habsent, hnode⟩
    dsimp only
    rw [dif_pos (isDir_iff.mpr hdir), dif_pos habsent]
    exact congrArg Except.ok (ext_node hnode.symm)

theorem grownTo_create {n : Node δ} (habsent : fs.node p = none)
    (hnode : fs'.node = Function.update fs.node p (some n)) : fs.GrownTo p fs' := by
  intro x
  by_cases hx : x = p
  · rw [hx]
    exact .inr ⟨List.suffix_rfl, habsent, fun h => absurd rfl h⟩
  · rw [hnode, Function.update_of_ne hx]
    exact .inl rfl

theorem exists_create {name : ν} (n : Node δ) (hdir : fs.node p = some .dir)
    (habsent : fs.node (name :: p) = none) : ∃ fs', fs.create n (name :: p) = .ok fs' := by
  unfold create
  dsimp only
  rw [dif_pos (isDir_iff.mpr hdir), dif_pos habsent]
  exact ⟨_, rfl⟩

/-- What a file holds, and whether it was synced, after a change to it. -/
def modify (fs : Files ν δ) (p : Path ν) (f : Content δ → Bool → Option (Content δ × Bool)) :
    Except IoError (Files ν δ) :=
  match hfile : fs.node p with
  | some (.file content synced) =>
    match f content synced with
    | some (content', synced') =>
      .ok (fs.set p (.file content' synced')
        (fun name q heq => fs.above name q (by rw [← heq, hfile]; rfl))
        (fun heq => absurd (hfile.symm.trans (heq ▸ fs.root)) (by simp))
        (.inr fun _ => child_eq_none (by rw [hfile]; simp) _))
    | none => .error .other
  | _ => .error .notFound

variable {f : Content δ → Bool → Option (Content δ × Bool)}

theorem modify_eq_ok :
    fs.modify p f = .ok fs' ↔ ∃ content synced content' synced',
      fs.node p = some (.file content synced) ∧ f content synced = some (content', synced') ∧
        fs'.node = Function.update fs.node p (some (.file content' synced')) := by
  unfold modify
  constructor
  · intro h
    split at h
    · next content synced hfile =>
      split at h
      · next content' synced' hf =>
        obtain rfl := Except.ok.inj h
        exact ⟨content, synced, content', synced', hfile, hf, rfl⟩
      · cases h
    · cases h
  · rintro ⟨content, synced, content', synced', hfile, hf, hnode⟩
    split
    · next content₁ synced₁ hfile₁ =>
      obtain ⟨rfl, rfl⟩ := Node.file.inj (Option.some.inj (hfile.symm.trans hfile₁))
      split
      · next hf₁ =>
        obtain ⟨rfl, rfl⟩ := Prod.mk.inj (Option.some.inj (hf.symm.trans hf₁))
        exact congrArg Except.ok (ext_node hnode.symm)
      · next hnone => exact absurd (hf.symm.trans hnone) (by simp)
    · next hne => exact absurd hfile (hne content synced)

variable {content : Content δ} {synced : Bool}

theorem exists_modify (hfile : fs.node p = some (.file content synced)) {changed : Content δ × Bool}
    (hf : f content synced = some changed) :
    ∃ fs', fs.modify p f = .ok fs' := by
  unfold modify
  split
  · next hfile₁ =>
    obtain ⟨rfl, rfl⟩ := Node.file.inj (Option.some.inj (hfile.symm.trans hfile₁))
    rw [hf]
    exact ⟨_, rfl⟩
  · next hne => exact absurd hfile (hne content synced)

/-- The bytes are written at the end of a file of bytes. -/
def append (fs : Files ν δ) (p : Path ν) (b : List UInt8) : Except IoError (Files ν δ) :=
  fs.modify p fun content _ =>
    match content with
    | .bytes b₀ => some (.bytes (b₀ ++ b), false)
    | .database _ => none

def syncFile (fs : Files ν δ) (p : Path ν) : Except IoError (Files ν δ) :=
  fs.modify p fun content _ => some (content, true)

theorem append_eq_ok {b : List UInt8} : fs.append p b = .ok fs' ↔ ∃ b₀ synced,
    fs.node p = some (.file (.bytes b₀) synced) ∧
      fs'.node = Function.update fs.node p (some (.file (.bytes (b₀ ++ b)) false)) := by
  unfold append
  rw [modify_eq_ok]
  constructor
  · rintro ⟨content, synced, content', synced', hfile, hcontent, hnode⟩
    cases content with
    | bytes b₀ =>
      obtain ⟨rfl, rfl⟩ := Prod.mk.inj (Option.some.inj hcontent)
      exact ⟨b₀, synced, hfile, hnode⟩
    | database d => cases hcontent
  · rintro ⟨b₀, synced, hfile, hnode⟩
    exact ⟨_, _, _, _, hfile, rfl, hnode⟩

theorem syncFile_eq_ok : fs.syncFile p = .ok fs' ↔ ∃ content synced,
    fs.node p = some (.file content synced) ∧
      fs'.node = Function.update fs.node p (some (.file content true)) := by
  unfold syncFile
  rw [modify_eq_ok]
  constructor
  · rintro ⟨content, synced, _, _, hfile, hcontent, hnode⟩
    obtain ⟨rfl, rfl⟩ := Prod.mk.inj (Option.some.inj hcontent)
    exact ⟨_, synced, hfile, hnode⟩
  · rintro ⟨content, synced, hfile, hnode⟩
    exact ⟨_, _, _, _, hfile, rfl, hnode⟩

theorem exists_syncFile (hfile : fs.node p = some (.file content synced)) :
    ∃ fs', fs.syncFile p = .ok fs' :=
  exists_modify hfile rfl

def syncDir (fs : Files ν δ) (p : Path ν) : Except IoError (Files ν δ) :=
  if fs.isDir p then .ok fs else .error .notFound

omit [DecidableEq ν] in
theorem syncDir_eq_ok : fs.syncDir p = .ok fs' ↔ fs.node p = some .dir ∧ fs' = fs := by
  unfold syncDir
  rw [← isDir_iff]
  split
  · next h => simp [h, eq_comm]
  · next h => simp [h]

/-- The file with a database, which is created where there is none. -/
def openDatabase (fs : Files ν δ) (p : Path ν) (d : δ) : Except IoError (Files ν δ) :=
  match fs.node p with
  | some (.file (.database _) _) => .ok fs
  | some _ => .error .other
  | none => fs.create (.file (.database d) true) p

theorem openDatabase_cases {d : δ} (h : fs.openDatabase p d = .ok fs') :
    (∃ d₀ synced, fs.node p = some (.file (.database d₀) synced) ∧ fs' = fs) ∨
      fs.create (.file (.database d) true) p = .ok fs' := by
  unfold openDatabase at h
  split at h
  · next d₀ synced hfile => exact .inl ⟨d₀, synced, hfile, (Except.ok.inj h).symm⟩
  · cases h
  · exact .inr h

/-- The database in the file is replaced by another, as a whole and durably. -/
def saveDatabase (fs : Files ν δ) (p : Path ν) (d : δ) : Except IoError (Files ν δ) :=
  fs.modify p fun content _ =>
    match content with
    | .database _ => some (.database d, true)
    | .bytes _ => none

theorem saveDatabase_eq_ok {d : δ} : fs.saveDatabase p d = .ok fs' ↔ ∃ d₀ synced,
    fs.node p = some (.file (.database d₀) synced) ∧
      fs'.node = Function.update fs.node p (some (.file (.database d) true)) := by
  unfold saveDatabase
  rw [modify_eq_ok]
  constructor
  · rintro ⟨content, synced, _, _, hfile, hcontent, hnode⟩
    cases content with
    | bytes b => cases hcontent
    | database d₀ =>
      obtain ⟨rfl, rfl⟩ := Prod.mk.inj (Option.some.inj hcontent)
      exact ⟨d₀, synced, hfile, hnode⟩
  · rintro ⟨d₀, synced, hfile, hnode⟩
    exact ⟨_, _, _, _, hfile, rfl, hnode⟩

/-- The directory and those above it that are missing. -/
def createDirAll (fs : Files ν δ) : Path ν → Except IoError (Files ν δ)
  | [] => .ok fs
  | name :: p => do
    let fs' ← fs.createDirAll p
    if fs'.isDir (name :: p) then .ok fs' else fs'.create .dir (name :: p)

theorem createDirAll_spec (h : fs.createDirAll p = .ok fs') :
    (∀ x, x <:+ p → fs'.node x = some .dir) ∧
      ∀ x, fs'.node x = fs.node x ∨ x <:+ p ∧ fs.node x = none := by
  induction p generalizing fs' with
  | nil =>
    obtain rfl := Except.ok.inj h
    refine ⟨?_, fun x => .inl rfl⟩
    intro x hx
    rw [List.suffix_nil.mp hx]
    exact fs.root
  | cons name p ih =>
    rw [createDirAll] at h
    obtain ⟨fs₁, hfs₁, h⟩ := bind_eq_ok.mp h
    obtain ⟨hdirs, hrest⟩ := ih hfs₁
    have hself : fs₁.node (name :: p) = fs.node (name :: p) := by
      refine (hrest (name :: p)).resolve_right fun h => ?_
      exact absurd h.1.length_le (by simp)
    split at h
    · next hdir =>
      obtain rfl := Except.ok.inj h
      refine ⟨?_, ?_⟩
      · intro x hx
        rcases List.suffix_cons_iff.mp hx with rfl | hx
        · exact isDir_iff.mp hdir
        · exact hdirs x hx
      · intro x
        exact (hrest x).imp id fun h => ⟨h.1.trans (List.suffix_cons name p), h.2⟩
    · obtain ⟨-, habsent, hnode⟩ := create_eq_ok.mp h
      refine ⟨?_, ?_⟩
      · intro x hx
        rw [hnode]
        rcases List.suffix_cons_iff.mp hx with rfl | hx
        · exact Function.update_self _ _ _
        · rw [Function.update_of_ne]
          · exact hdirs x hx
          · intro heq
            rw [heq] at hx
            exact absurd hx.length_le (by simp)
      · intro x
        rw [hnode]
        by_cases hx : x = name :: p
        · rw [hx] at *
          exact .inr ⟨List.suffix_rfl, hself ▸ habsent⟩
        · rw [Function.update_of_ne hx]
          exact (hrest x).imp id fun h => ⟨h.1.trans (List.suffix_cons name p), h.2⟩

theorem dirsTo_createDirAll (h : fs.createDirAll p = .ok fs') : fs.DirsTo p fs' := by
  intro x
  obtain ⟨hdirs, hrest⟩ := createDirAll_spec h
  exact (hrest x).imp id fun hnew => ⟨hnew.1, hnew.2, hdirs x hnew.1⟩

theorem exists_createDirAll (h : ∀ x, x <:+ p → fs.node x = none ∨ fs.node x = some .dir) :
    ∃ fs', fs.createDirAll p = .ok fs' := by
  induction p with
  | nil => exact ⟨fs, rfl⟩
  | cons name p ih =>
    obtain ⟨fs₁, hfs₁⟩ := ih fun x hx => h x (hx.trans (List.suffix_cons name p))
    obtain ⟨hdirs, hrest⟩ := createDirAll_spec hfs₁
    have hself : fs₁.node (name :: p) = fs.node (name :: p) := by
      refine (hrest (name :: p)).resolve_right fun h => ?_
      exact absurd h.1.length_le (by simp)
    rw [createDirAll, hfs₁, ok_bind]
    rcases h _ List.suffix_rfl with habsent | hdir
    · have hnot : ¬ fs₁.isDir (name :: p) = true := by
        rw [isDir_iff, hself, habsent]
        simp
      rw [if_neg hnot]
      exact exists_create .dir (hdirs p List.suffix_rfl) (hself.trans habsent)
    · rw [if_pos (isDir_iff.mpr (hself.trans hdir))]
      exact ⟨fs₁, rfl⟩

theorem createDirAll_of_dir (h : fs.node p = some .dir) : fs.createDirAll p = .ok fs := by
  have hdir : ∀ x, x <:+ p → fs.node x = some .dir := fun x hx => node_of_suffix h hx
  obtain ⟨fs', hfs'⟩ := exists_createDirAll fun x hx => .inr (hdir x hx)
  have hsame : fs'.node = fs.node := by
    funext x
    rcases (createDirAll_spec hfs').2 x with hsame | ⟨hx, habsent⟩
    · exact hsame
    · exact absurd (habsent.symm.trans (hdir x hx)) (by simp)
  rw [hfs', ext_node hsame]

def link (fs : Files ν δ) (p q : Path ν) : Except IoError (Files ν δ) :=
  match fs.node p with
  | some (.file content synced) => fs.create (.file content synced) q
  | _ => .error .notFound

theorem link_eq_ok : fs.link p q = .ok fs' ↔ ∃ content synced,
    fs.node p = some (.file content synced) ∧ fs.create (.file content synced) q = .ok fs' := by
  unfold link
  constructor
  · intro h
    split at h
    · next content synced hfile => exact ⟨content, synced, hfile, h⟩
    · cases h
  · rintro ⟨content, synced, hfile, hcreate⟩
    rw [hfile]
    exact hcreate

/-- What is at the first path, with everything below it, is moved to the second. -/
def rename (fs : Files ν δ) (p q : Path ν) : Except IoError (Files ν δ) :=
  if hfree : p ≠ [] ∧ q ≠ [] ∧ fs.present p = true ∧ fs.isDir q.tail = true ∧ fs.node q = none ∧
      ¬ p <:+ q then
    .ok
      { node := fun x =>
          if q <:+ x then fs.node (x.take (x.length - q.length) ++ p)
          else if p <:+ x then none else fs.node x
        root := by
          rw [if_neg (fun h => hfree.2.1 (List.suffix_nil.mp h)),
            if_neg (fun h => hfree.1 (List.suffix_nil.mp h))]
          exact fs.root
        above := by
          obtain ⟨hp, hq, -, hdir, -, hinto⟩ := hfree
          intro name x hsome
          by_cases hin : q <:+ x
          · -- below the new name
            have hlength := hin.length_le
            have htake : (name :: x).take ((name :: x).length - q.length) =
                name :: x.take (x.length - q.length) := by
              rw [List.length_cons, Nat.succ_sub hlength, List.take_succ_cons]
            rw [if_pos (hin.trans (List.suffix_cons name x)), htake] at hsome
            rw [if_pos hin]
            exact fs.above name _ hsome
          · rw [if_neg hin]
            by_cases hself : q <:+ name :: x
            · -- the new name itself
              obtain rfl : q = name :: x :=
                (List.suffix_cons_iff.mp hself).resolve_right hin
              rw [if_neg fun h => hinto (h.trans (List.suffix_cons name x))]
              exact isDir_iff.mp hdir
            · have hout : ¬ p <:+ name :: x := by
                intro h
                rw [if_neg hself, if_pos h] at hsome
                cases hsome
              rw [if_neg hself, if_neg hout] at hsome
              rw [if_neg fun h => hout (h.trans (List.suffix_cons name x))]
              exact fs.above name x hsome }
  else .error .other

theorem rename_eq_ok : fs.rename p q = .ok fs' ↔
    (p ≠ [] ∧ (fs.node p).isSome = true ∧ (∃ name r, q = name :: r ∧ fs.node r = some .dir) ∧
      fs.node q = none ∧ ¬ p <:+ q) ∧
    (∀ t, fs'.node (t ++ q) = fs.node (t ++ p)) ∧
    (∀ x, ¬ q <:+ x → p <:+ x → fs'.node x = none) ∧
    ∀ x, ¬ q <:+ x → ¬ p <:+ x → fs'.node x = fs.node x := by
  have htake : ∀ t : Path ν, (t ++ q).take ((t ++ q).length - q.length) = t := by
    intro t
    rw [List.length_append, Nat.add_sub_cancel, List.take_left']
    rfl
  unfold rename
  constructor
  · intro h
    split at h
    · next hfree =>
      obtain ⟨hp, hq, hpresent, hdir, habsent, hinto⟩ := hfree
      obtain ⟨name, r, rfl⟩ := List.exists_cons_of_ne_nil hq
      obtain rfl := Except.ok.inj h
      refine ⟨⟨hp, hpresent, ⟨name, r, rfl, isDir_iff.mp hdir⟩, habsent, hinto⟩, ?_, ?_, ?_⟩
      · intro t
        dsimp only
        rw [if_pos (List.suffix_append t _), htake]
      · intro x hx hx'
        dsimp only
        rw [if_neg hx, if_pos hx']
      · intro x hx hx'
        dsimp only
        rw [if_neg hx, if_neg hx']
    · cases h
  · rintro ⟨⟨hp, hpresent, ⟨name, r, rfl, hdir⟩, habsent, hinto⟩, hmoved, hgone, hrest⟩
    rw [dif_pos ⟨hp, List.cons_ne_nil _ _, hpresent, isDir_iff.mpr hdir, habsent, hinto⟩]
    refine congrArg Except.ok (ext_node (funext fun x => ?_))
    dsimp only
    by_cases hx : name :: r <:+ x
    · obtain ⟨t, rfl⟩ := hx
      rw [if_pos (List.suffix_append t _), htake, hmoved]
    · rw [if_neg hx]
      by_cases hx' : p <:+ x
      · rw [if_pos hx', hgone x hx hx']
      · rw [if_neg hx', hrest x hx hx']

theorem exists_rename {name : ν} {r : Path ν} (hp : p ≠ []) (hpresent : (fs.node p).isSome = true)
    (hdir : fs.node r = some .dir) (habsent : fs.node (name :: r) = none)
    (hinto : ¬ p <:+ name :: r) : ∃ fs', fs.rename p (name :: r) = .ok fs' := by
  unfold rename
  rw [dif_pos ⟨hp, List.cons_ne_nil _ _, hpresent, isDir_iff.mpr hdir, habsent, hinto⟩]
  exact ⟨_, rfl⟩

def removeFile (fs : Files ν δ) (p : Path ν) : Except IoError (Files ν δ) :=
  match hfile : fs.node p with
  | some (.file _ _) =>
    .ok
      { node := Function.update fs.node p none
        root := by
          rw [Function.update_of_ne]
          · exact fs.root
          · intro heq
            rw [← heq, fs.root] at hfile
            cases hfile
        above := by
          intro name q hsome
          have hne : name :: q ≠ p := by
            intro heq
            rw [heq, Function.update_self] at hsome
            cases hsome
          rw [Function.update_of_ne hne] at hsome
          have hdir := fs.above name q hsome
          rw [Function.update_of_ne]
          · exact hdir
          · intro heq
            rw [heq, hfile] at hdir
            cases hdir }
  | _ => .error .notFound

theorem removeFile_eq_ok : fs.removeFile p = .ok fs' ↔
    (∃ content synced, fs.node p = some (.file content synced)) ∧
      fs'.node = Function.update fs.node p none := by
  unfold removeFile
  constructor
  · intro h
    split at h
    · next content synced hfile =>
      obtain rfl := Except.ok.inj h
      exact ⟨⟨content, synced, hfile⟩, rfl⟩
    · cases h
  · rintro ⟨⟨content, synced, hfile⟩, hnode⟩
    split
    · exact congrArg Except.ok (ext_node hnode.symm)
    · next hne => exact absurd hfile (hne content synced)

theorem exists_removeFile (hfile : fs.node p = some (.file content synced)) :
    ∃ fs', fs.removeFile p = .ok fs' := by
  unfold removeFile
  split
  · exact ⟨_, rfl⟩
  · next hne => exact absurd hfile (hne content synced)

theorem removeFile_of_absent (h : fs.node p = none) : fs.removeFile p = .error .notFound := by
  unfold removeFile
  split
  · next hfile => exact absurd (h.symm.trans hfile) (by simp)
  · rfl

/-- The directory is removed, with everything in it. -/
def removeDirAll (fs : Files ν δ) (p : Path ν) : Except IoError (Files ν δ) :=
  if hne : p = [] then .error .other
  else if fs.isDir p = true then
    .ok
      { node := fun x => if p <:+ x then none else fs.node x
        root := by
          rw [if_neg (fun h => hne (List.suffix_nil.mp h))]
          exact fs.root
        above := by
          intro name q hsome
          have hout : ¬ p <:+ name :: q := by
            intro hin
            rw [if_pos hin] at hsome
            cases hsome
          rw [if_neg hout] at hsome
          rw [if_neg fun h => hout (h.trans (List.suffix_cons name q))]
          exact fs.above name q hsome }
  else .error .notFound

theorem removeDirAll_eq_ok : fs.removeDirAll p = .ok fs' ↔
    p ≠ [] ∧ fs.node p = some .dir ∧ fs'.node = fun x => if p <:+ x then none else fs.node x := by
  unfold removeDirAll
  constructor
  · intro h
    split at h
    · cases h
    · next hne =>
      split at h
      · next hdir =>
        obtain rfl := Except.ok.inj h
        exact ⟨hne, isDir_iff.mp hdir, rfl⟩
      · cases h
  · rintro ⟨hne, hdir, hnode⟩
    rw [dif_neg hne, if_pos (isDir_iff.mpr hdir)]
    exact congrArg Except.ok (ext_node hnode.symm)

end Files

end FileSystem
