import Weaver.Lib.Crash
import Weaver.Lib.FileSystem

/-!
# Requests of a filesystem

What a program asks of a filesystem: what there is, or a change. A change that fails may have part
of its effect (`Change.Torn`): the first of the missing directories, a prefix of the bytes, some of
the entries of a directory that is removed. What a proof needs of a change is mostly where it can
act: which paths it may create, and which it may alter (`step_of_present`, `step_of_absent`).
-/

namespace FileSystem

open Checked Program

inductive Change (ν δ : Type) where
  | createDirAll (p : Path ν)
  | createDir (p : Path ν)
  | createNew (p : Path ν)
  | append (p : Path ν) (b : List UInt8)
  | syncFile (p : Path ν)
  | syncDir (p : Path ν)
  | link (p q : Path ν)
  | rename (p q : Path ν)
  | removeFile (p : Path ν)
  | removeDirAll (p : Path ν)
  | openDatabase (p : Path ν) (d : δ)
  | saveDatabase (p : Path ν) (d : δ)

inductive Request (ν δ : Type) where
  | present (p : Path ν)
  | read (p : Path ν)
  | load (p : Path ν)
  | change (c : Change ν δ)

abbrev Request.Answer {ν δ : Type} : Request ν δ → Type
  | .present _ => Bool
  | .read _ => Except IoError (List UInt8)
  | .load _ => Except IoError δ
  | .change _ => Except IoError Unit

abbrev requests (ν δ : Type) : Interface := ⟨Request ν δ, Request.Answer⟩

variable {ν δ : Type} [DecidableEq ν] {fs fs' : Files ν δ} {p q x : Path ν} {c : Change ν δ}

def Change.apply (fs : Files ν δ) : Change ν δ → Except IoError (Files ν δ)
  | .createDirAll p => fs.createDirAll p
  | .createDir p => fs.create .dir p
  | .createNew p => fs.create (.file (.bytes []) false) p
  | .append p b => fs.append p b
  | .syncFile p => fs.syncFile p
  | .syncDir p => fs.syncDir p
  | .link p q => fs.link p q
  | .rename p q => fs.rename p q
  | .removeFile p => fs.removeFile p
  | .removeDirAll p => fs.removeDirAll p
  | .openDatabase p d => fs.openDatabase p d
  | .saveDatabase p d => fs.saveDatabase p d

/-- The filesystem that a change may leave when it fails. -/
def Change.Torn (fs fs' : Files ν δ) : Change ν δ → Prop
  | .createDirAll p => ∃ q, q <:+ p ∧ fs.createDirAll q = .ok fs'
  | .append p b => fs' = fs ∨ ∃ b', b' <+: b ∧ fs.append p b' = .ok fs'
  | .removeDirAll p => ∀ x, fs'.node x = fs.node x ∨ p <:+ x ∧ fs'.node x = none
  | .openDatabase p _ => fs' = fs ∨ ∃ content, fs.create (.file content false) p = .ok fs'
  | .saveDatabase p d => fs' = fs ∨ fs.saveDatabase p d = .ok fs'
  | _ => fs' = fs

def serve : Server (requests ν δ) (Files ν δ)
  | fs, .present p => (fs.present p, fs)
  | fs, .read p => (fs.read p, fs)
  | fs, .load p => (fs.load p, fs)
  | fs, .change c =>
    match c.apply fs with
    | .ok fs' => ((.ok () : Except IoError Unit), fs')
    | .error e => ((.error e : Except IoError Unit), fs)

/-- A request that fails. Whether something is at a path is always answered. -/
def Broken (fs : Files ν δ) : (r : Request ν δ) → r.Answer → Files ν δ → Prop
  | .present _, _, _ => False
  | .read _, ans, fs' => ans = .error .other ∧ fs' = fs
  | .load _, ans, fs' => ans = .error .other ∧ fs' = fs
  | .change c, ans, fs' => ans = .error .other ∧ c.Torn fs fs'

/-- The filesystem on which the requests of a kind may fail. -/
abbrev faulty (Fails : Request ν δ → Prop) : Machine (requests ν δ) (Files ν δ) :=
  Server.failing serve Fails Broken

theorem step_change {Fails : Request ν δ → Prop} {ans : Except IoError Unit}
    (h : faulty Fails fs (.change c) ans fs') :
    ans = .ok () ∧ c.apply fs = .ok fs' ∨
      ∃ e, ans = .error e ∧
        (fs' = fs ∧ c.apply fs = .error e ∨ Fails (.change c) ∧ e = .other ∧ c.Torn fs fs') := by
  rcases h with h | ⟨hfails, hans, htorn⟩
  · unfold serve at h
    dsimp only at h
    split at h
    · next heq =>
      obtain ⟨hans, rfl⟩ := Prod.mk.inj h
      exact .inl ⟨hans.symm, heq⟩
    · next e heq =>
      obtain ⟨hans, rfl⟩ := Prod.mk.inj h
      exact .inr ⟨e, hans.symm, .inl ⟨rfl, heq⟩⟩
  · exact .inr ⟨_, hans, .inr ⟨hfails, rfl, htorn⟩⟩

theorem step_read {Fails : Request ν δ → Prop} {r : Request ν δ} {ans : r.Answer}
    (h : faulty Fails fs r ans fs') (hr : ∀ c, r ≠ .change c) : fs' = fs := by
  cases r with
  | present p =>
    rcases h with h | ⟨-, hbroken⟩
    · exact (Prod.mk.inj h).2.symm
    · exact hbroken.elim
  | read p =>
    rcases h with h | ⟨-, -, heq⟩
    · exact (Prod.mk.inj h).2.symm
    · exact heq
  | load p =>
    rcases h with h | ⟨-, -, heq⟩
    · exact (Prod.mk.inj h).2.symm
    · exact heq
  | change c => exact absurd rfl (hr c)

/-! ## Where a change acts -/

def Change.Creates (x : Path ν) : Change ν δ → Prop
  | .createDirAll p => x <:+ p
  | .createDir p => x = p
  | .createNew p => x = p
  | .link _ q => x = q
  | .rename _ q => q <:+ x
  | .openDatabase p _ => x = p
  | _ => False

/-- The paths at which a change may alter what there is. -/
def Change.Alters (x : Path ν) : Change ν δ → Prop
  | .append p _ => x = p
  | .syncFile p => x = p
  | .rename p _ => p <:+ x
  | .removeFile p => x = p
  | .removeDirAll p => p <:+ x
  | .saveDatabase p _ => x = p
  | _ => False

def Request.Creates (x : Path ν) : Request ν δ → Prop
  | .change c => c.Creates x
  | _ => False

/-- The paths at which a request may alter what there is. -/
def Request.Alters (x : Path ν) : Request ν δ → Prop
  | .change c => c.Alters x
  | _ => False

/-- The difference is within the paths that may be created and those that may be altered. -/
def Within (fs fs' : Files ν δ) (Creates Alters : Path ν → Prop) : Prop :=
  ∀ x, fs'.node x = fs.node x ∨ fs.node x = none ∧ Creates x ∨
    (fs.node x).isSome = true ∧ Alters x

section Acts

variable {Creates Alters : Path ν → Prop}

omit [DecidableEq ν] in
theorem Within.refl (fs : Files ν δ) : Within fs fs Creates Alters := fun _ => .inl rfl

theorem within_create {n : Node δ} (h : fs.create n p = .ok fs') (hp : Creates p) :
    Within fs fs' Creates Alters := by
  obtain ⟨-, habsent, hnode⟩ := Files.create_eq_ok.mp h
  intro x
  by_cases hx : x = p
  · rw [hx]
    exact .inr (.inl ⟨habsent, hp⟩)
  · rw [hnode, Function.update_of_ne hx]
    exact .inl rfl

theorem within_modify {f : Content δ → Bool → Option (Content δ × Bool)}
    (h : fs.modify p f = .ok fs') (hp : Alters p) : Within fs fs' Creates Alters := by
  obtain ⟨content, synced, _, _, hfile, -, hnode⟩ := Files.modify_eq_ok.mp h
  intro x
  by_cases hx : x = p
  · rw [hx, hfile]
    exact .inr (.inr ⟨rfl, hp⟩)
  · rw [hnode, Function.update_of_ne hx]
    exact .inl rfl

theorem within_createDirAll (h : fs.createDirAll p = .ok fs') (hp : ∀ x, x <:+ p → Creates x) :
    Within fs fs' Creates Alters := by
  intro x
  rcases (Files.createDirAll_spec h).2 x with hsame | ⟨hx, habsent⟩
  · exact .inl hsame
  · exact .inr (.inl ⟨habsent, hp x hx⟩)

omit [DecidableEq ν] in
theorem within_removed (h : ∀ x, fs'.node x = fs.node x ∨ Alters x ∧ fs'.node x = none) :
    Within fs fs' Creates Alters := by
  intro x
  rcases h x with hsame | ⟨hx, habsent⟩
  · exact .inl hsame
  · cases hnode : fs.node x with
    | none => exact .inl habsent
    | some n => exact .inr (.inr ⟨rfl, hx⟩)

theorem within_rename (h : fs.rename p q = .ok fs') (hp : ∀ x, p <:+ x → Alters x)
    (hq : ∀ x, q <:+ x → Creates x) : Within fs fs' Creates Alters := by
  obtain ⟨⟨-, -, -, habsent, -⟩, -, hgone, hrest⟩ := Files.rename_eq_ok.mp h
  intro x
  by_cases hx : q <:+ x
  · exact .inr (.inl ⟨Files.eq_none_of_suffix habsent hx, hq x hx⟩)
  by_cases hx' : p <:+ x
  · cases hnode : fs.node x with
    | none => exact .inl (hgone x hx hx')
    | some n => exact .inr (.inr ⟨rfl, hp x hx'⟩)
  · exact .inl (hrest x hx hx')

end Acts

theorem Change.within_apply (h : c.apply fs = .ok fs') :
    Within fs fs' (fun x => c.Creates x) (fun x => c.Alters x) := by
  cases c with
  | createDirAll p => exact within_createDirAll h fun x hx => hx
  | createDir p => exact within_create h rfl
  | createNew p => exact within_create h rfl
  | append p b => exact within_modify h rfl
  | syncFile p => exact within_modify (show fs.syncFile p = .ok fs' from h) rfl
  | syncDir p =>
    obtain ⟨-, rfl⟩ := Files.syncDir_eq_ok.mp h
    exact .refl fs'
  | link p q =>
    obtain ⟨_, _, -, hcreate⟩ := Files.link_eq_ok.mp h
    exact within_create hcreate rfl
  | rename p q => exact within_rename h (fun x hx => hx) fun x hx => hx
  | removeFile p =>
    refine within_removed fun x => ?_
    obtain ⟨-, hnode⟩ := Files.removeFile_eq_ok.mp h
    by_cases hx : x = p
    · rw [hnode, hx, Function.update_self]
      exact .inr ⟨rfl, rfl⟩
    · rw [hnode, Function.update_of_ne hx]
      exact .inl rfl
  | removeDirAll p =>
    refine within_removed fun x => ?_
    obtain ⟨-, -, hnode⟩ := Files.removeDirAll_eq_ok.mp h
    by_cases hx : p <:+ x
    · rw [hnode]
      exact .inr ⟨hx, if_pos hx⟩
    · rw [hnode]
      exact .inl (if_neg hx)
  | openDatabase p d =>
    rcases Files.openDatabase_cases h with ⟨_, _, -, rfl⟩ | hcreate
    · exact .refl fs'
    · exact within_create hcreate rfl
  | saveDatabase p d => exact within_modify h rfl

theorem Change.within_torn (h : c.Torn fs fs') :
    Within fs fs' (fun x => c.Creates x) (fun x => c.Alters x) := by
  cases c with
  | createDirAll p =>
    obtain ⟨q, hq, h⟩ := h
    exact within_createDirAll h fun x hx => hx.trans hq
  | append p b =>
    rcases h with rfl | ⟨b', -, h⟩
    · exact .refl fs'
    · exact within_modify h rfl
  | removeDirAll p => exact within_removed h
  | openDatabase p d =>
    rcases h with rfl | ⟨content, h⟩
    · exact .refl fs'
    · exact within_create h rfl
  | saveDatabase p d =>
    rcases h with rfl | h
    · exact .refl fs'
    · exact within_modify h rfl
  | _ =>
    obtain rfl : fs' = fs := h
    exact .refl fs'

section Step

variable {Fails : Request ν δ → Prop} {r : Request ν δ} {ans : r.Answer}

theorem step_within (h : faulty Fails fs r ans fs') :
    Within fs fs' (fun x => r.Creates x) (fun x => r.Alters x) := by
  by_cases hr : ∀ c, r ≠ .change c
  · obtain rfl := step_read h hr
    exact .refl fs'
  · obtain ⟨c, rfl⟩ : ∃ c, r = .change c := by simpa using hr
    rcases step_change h with ⟨-, hok⟩ | ⟨e, -, ⟨rfl, -⟩ | ⟨-, -, htorn⟩⟩
    · exact Change.within_apply hok
    · exact .refl fs'
    · exact Change.within_torn htorn

theorem step_of_present (h : faulty Fails fs r ans fs') (hx : (fs.node x).isSome = true)
    (hr : ¬ r.Alters x) : fs'.node x = fs.node x := by
  rcases step_within h x with hsame | ⟨habsent, -⟩ | ⟨-, halters⟩
  · exact hsame
  · rw [habsent] at hx
    cases hx
  · exact absurd halters hr

theorem step_of_absent (h : faulty Fails fs r ans fs') (hx : fs.node x = none)
    (hr : ¬ r.Creates x) : fs'.node x = none := by
  rcases step_within h x with hsame | ⟨-, hcreates⟩ | ⟨hpresent, -⟩
  · exact hsame.trans hx
  · exact absurd hcreates hr
  · rw [hx] at hpresent
    cases hpresent

theorem step_of_untouched' (h : faulty Fails fs r ans fs')
    (hcreates : fs.node x = none → ¬ r.Creates x) (halters : ¬ r.Alters x) :
    fs'.node x = fs.node x := by
  cases hx : fs.node x with
  | none => exact step_of_absent h hx (hcreates hx)
  | some n => exact (step_of_present h (by rw [hx]; rfl) halters).trans hx

theorem step_of_untouched (h : faulty Fails fs r ans fs') (hcreates : ¬ r.Creates x)
    (halters : ¬ r.Alters x) : fs'.node x = fs.node x :=
  step_of_untouched' h (fun _ => hcreates) halters

end Step

def Request.Below (d : Path ν) (r : Request ν δ) : Prop :=
  ∀ x, r.Creates x ∨ r.Alters x → d <:+ x

omit [DecidableEq ν] in
theorem Request.below_present (d p : Path ν) : (Request.present p : Request ν δ).Below d :=
  fun _ h => h.elim False.elim False.elim

omit [DecidableEq ν] in
theorem Request.below_read (d p : Path ν) : (Request.read p : Request ν δ).Below d :=
  fun _ h => h.elim False.elim False.elim

variable {d : Path ν}

theorem always_below {α : Type} {Fails : Request ν δ → Prop} {prog : Prog (requests ν δ) α}
    (h : prog.Only (Request.Below d)) :
    Always (faulty Fails) (fs.SameOutside d) prog (fun _ => fs.SameOutside d) fs := by
  refine Always.only h ?_ fun x _ => rfl
  intro r hr fs₁ ans fs₂ hstep hsame x hx
  rw [← hsame x hx]
  exact step_of_untouched hstep (fun hc => hx (hr x (.inl hc))) fun ha => hx (hr x (.inr ha))

/-- The request acts at or below a path, and may create what is above it. -/
def Request.Around (d : Path ν) (r : Request ν δ) : Prop :=
  ∀ x, (r.Creates x → d <:+ x ∨ x <:+ d) ∧ (r.Alters x → d <:+ x)

omit [DecidableEq ν] in
theorem Request.Below.around {d' : Path ν} {r : Request ν δ} (h : r.Below d) (hd : d' <:+ d) :
    r.Around d' :=
  fun x => ⟨fun hc => .inl (hd.trans (h x (.inl hc))), fun ha => hd.trans (h x (.inr ha))⟩

theorem step_around {Fails : Request ν δ → Prop} {r : Request ν δ} {ans : r.Answer}
    {fs₀ : Files ν δ} (hd : fs₀.node d = some .dir) (hr : r.Around d) (hsame : fs₀.SameOutside d fs)
    (hstep : faulty Fails fs r ans fs') : fs₀.SameOutside d fs' := by
  intro x hx
  rw [← hsame x hx]
  refine step_of_untouched' hstep (fun habsent hc => ?_) fun ha => hx ((hr x).2 ha)
  have habove := ((hr x).1 hc).resolve_left hx
  rw [hsame x hx, Files.node_of_suffix hd habove] at habsent
  cases habsent

theorem always_around {α : Type} {Fails : Request ν δ → Prop} {prog : Prog (requests ν δ) α}
    (hd : fs.node d = some .dir) (h : prog.Only (Request.Around d)) :
    Always (faulty Fails) (fs.SameOutside d) prog (fun _ => fs.SameOutside d) fs := by
  refine Always.only h ?_ fun x _ => rfl
  intro r hr fs₁ ans fs₂ hstep hsame
  exact step_around hd hr hsame hstep

/-! ## Programs -/

section Programs

variable {ε : Type} {Fails : Request ν δ → Prop} {Calm : Prop}

omit [DecidableEq ν] in
def present (p : Path ν) : Task (requests ν δ) ε Bool :=
  Task.request (.present p) fun (found : Bool) => .ok found

omit [DecidableEq ν] in
/-- The bytes of a file, for a caller that looks at the error itself. -/
def tryRead (p : Path ν) : Task (requests ν δ) ε (Except IoError (List UInt8)) :=
  Task.request (.read p) fun (bytes : Except IoError (List UInt8)) => .ok bytes

omit [DecidableEq ν] in
/-- A change, by a caller that looks at the error itself. -/
def tryChange (c : Change ν δ) : Task (requests ν δ) ε (Except IoError Unit) :=
  Task.request (.change c) fun (result : Except IoError Unit) => .ok result

omit [DecidableEq ν] in
def load (failed : IoError → ε) (p : Path ν) : Task (requests ν δ) ε δ :=
  Task.request (.load p) fun (database : Except IoError δ) => database.mapError failed

omit [DecidableEq ν] in
/-- A change, whose failure is an error of the caller. -/
def change (failed : IoError → ε) (c : Change ν δ) : Task (requests ν δ) ε Unit :=
  Task.request (.change c) fun ans => ans.mapError failed

omit [DecidableEq ν] in
/-- Pieces of bytes are written one after the other. -/
def writeAll (failed : IoError → ε) (p : Path ν) :
    List (List UInt8) → Task (requests ν δ) ε Unit
  | [] => pure ()
  | b :: rest => do
    change failed (.append p b)
    writeAll failed p rest

omit [DecidableEq ν] in
def writeNew (failed : IoError → ε) (p : Path ν) (pieces : List (List UInt8)) :
    Task (requests ν δ) ε Unit := do
  change failed (.createNew p)
  writeAll failed p pieces
  change failed (.syncFile p)

variable {failed : IoError → ε}

omit [DecidableEq ν] in
theorem change_only {K : Request ν δ → Prop} (h : K (.change c)) :
    Prog.Only K (change failed c) :=
  ⟨h, fun _ => trivial⟩

omit [DecidableEq ν] in
theorem writeAll_only {K : Request ν δ → Prop} (h : ∀ b, K (.change (.append p b)))
    (pieces : List (List UInt8)) :
    Prog.Only K (writeAll failed p pieces) := by
  induction pieces with
  | nil => trivial
  | cons b rest ih => exact Prog.Only.andThen (change_only (h b)) fun _ => ih

omit [DecidableEq ν] in
theorem writeNew_only {K : Request ν δ → Prop} (hcreate : K (.change (.createNew p)))
    (happend : ∀ b, K (.change (.append p b))) (hsync : K (.change (.syncFile p)))
    (pieces : List (List UInt8)) :
    Prog.Only K (writeNew failed p pieces) :=
  Prog.Only.andThen (change_only hcreate) fun _ =>
    Prog.Only.andThen (writeAll_only happend pieces) fun _ => change_only hsync

theorem present_yields :
    Yields (faulty Fails) Calm (present p : Task (requests ν δ) ε Bool)
      (fun found fs' => found = fs.present p ∧ fs' = fs) fs := by
  refine Always.request ?_
  intro ans fs' hstep
  refine ⟨trivial, ?_⟩
  rcases hstep with hserve | ⟨-, hbroken⟩
  · obtain ⟨rfl, rfl⟩ := Prod.mk.inj hserve
    exact ⟨rfl, rfl⟩
  · exact hbroken.elim

theorem tryRead_yields :
    Yields (faulty Fails) Calm (tryRead p : Task (requests ν δ) ε _)
      (fun bytes fs' => fs' = fs ∧
        (bytes = fs.read p ∨ Fails (.read p) ∧ bytes = .error .other)) fs := by
  refine Always.request ?_
  intro ans fs' hstep
  refine ⟨trivial, ?_⟩
  rcases hstep with hserve | ⟨hfails, hans, heq⟩
  · obtain ⟨rfl, rfl⟩ := Prod.mk.inj hserve
    exact ⟨rfl, .inl rfl⟩
  · exact ⟨heq, .inr ⟨hfails, hans⟩⟩

variable {synced : Bool}

theorem load_yields {d : δ} (hfile : fs.node p = some (.file (.database d) synced))
    (hsafe : Calm → ¬ Fails (.load p)) :
    Yields (faulty Fails) Calm (load failed p) (fun d' fs' => d' = d ∧ fs' = fs) fs := by
  have hload : fs.load p = .ok d := by
    unfold Files.load
    rw [hfile]
  refine Always.request ?_
  intro ans fs' hstep
  refine ⟨trivial, ?_⟩
  rcases hstep with hserve | ⟨hfails, rfl, -⟩
  · obtain ⟨rfl, rfl⟩ := Prod.mk.inj hserve
    rw [hload]
    exact ⟨rfl, rfl⟩
  · exact fun hcalm => hsafe hcalm hfails

theorem tryChange_yields :
    Yields (faulty Fails) Calm (tryChange c : Task (requests ν δ) ε _)
      (fun result fs' => result = .ok () ∧ c.apply fs = .ok fs' ∨
        ∃ e, result = .error e ∧
          (fs' = fs ∧ c.apply fs = .error e ∨
            Fails (.change c) ∧ e = .other ∧ c.Torn fs fs')) fs := by
  refine Always.request ?_
  intro ans fs' hstep
  exact ⟨trivial, step_change hstep⟩

theorem serve_change_of_ok (h : c.apply fs = .ok fs') :
    serve fs (.change c) = ((.ok () : Except IoError Unit), fs') := by
  unfold serve
  dsimp only
  rw [h]

theorem serve_change_of_error {e : IoError} (h : c.apply fs = .error e) :
    serve fs (.change c) = ((.error e : Except IoError Unit), fs) := by
  unfold serve
  dsimp only
  rw [h]

theorem change_run (h : c.apply fs = .ok fs') :
    (change failed c).run serve fs = (.ok (), fs') := by
  unfold change
  rw [Task.run_request, serve_change_of_ok h]
  rfl

theorem tryChange_run_of_ok (h : c.apply fs = .ok fs') :
    (tryChange c : Task (requests ν δ) ε _).run serve fs = (.ok (.ok ()), fs') := by
  unfold tryChange
  rw [Task.run_request, serve_change_of_ok h]

theorem tryChange_run_of_error {e : IoError} (h : c.apply fs = .error e) :
    (tryChange c : Task (requests ν δ) ε _).run serve fs = (.ok (.error e), fs) := by
  unfold tryChange
  rw [Task.run_request, serve_change_of_error h]

theorem load_run {d : δ} (hfile : fs.node p = some (.file (.database d) synced)) :
    (load failed p).run serve fs = (.ok d, fs) := by
  have hload : fs.load p = .ok d := by
    unfold Files.load
    rw [hfile]
  change (Except.mapError failed (fs.load p), fs) = _
  rw [hload]
  rfl

theorem change_yields (h : Calm → ¬ Fails (.change c) ∧ ∃ fs', c.apply fs = .ok fs') :
    Yields (faulty Fails) Calm (change failed c) (fun _ fs' => c.apply fs = .ok fs') fs := by
  refine Always.request ?_
  intro ans fs' hstep
  refine ⟨trivial, ?_⟩
  rcases step_change hstep with ⟨rfl, hok⟩ | ⟨e, rfl, hwhy⟩
  · exact hok
  · intro hcalm
    obtain ⟨hsafe, fs₁, hok⟩ := h hcalm
    rcases hwhy with ⟨-, herror⟩ | ⟨hfails, -⟩
    · exact absurd (herror.symm.trans hok) (by simp)
    · exact hsafe hfails

variable {pieces : List (List UInt8)}

theorem writeAll_yields (hsafe : Calm → ∀ b, ¬ Fails (.change (.append p b))) {b₀ : List UInt8}
    (hfile : fs.node p = some (.file (.bytes b₀) synced)) :
    Yields (faulty Fails) Calm (writeAll failed p pieces) (fun _ fs' => ∃ synced',
      fs'.node = Function.update fs.node p
        (some (.file (.bytes (b₀ ++ pieces.flatten)) synced'))) fs := by
  induction pieces generalizing fs b₀ synced with
  | nil =>
    refine Yields.of_pure ⟨synced, ?_⟩
    rw [List.flatten_nil, List.append_nil, ← hfile, Function.update_eq_self]
  | cons b rest ih =>
    refine Yields.andThen (change_yields ?_) ?_
    · intro hcalm
      exact ⟨hsafe hcalm _, Files.exists_modify hfile rfl⟩
    · intro _ fs₁ happly
      obtain ⟨b₁, _, hfile₁, hnode⟩ := Files.append_eq_ok.mp happly
      obtain ⟨rfl, rfl⟩ : b₁ = b₀ ∧ _ := by simpa using hfile₁.symm.trans hfile
      have hfile₂ : fs₁.node p = some (.file (.bytes (b₁ ++ b)) false) := by
        rw [hnode, Function.update_self]
      refine (ih hfile₂).weaken id ?_
      rintro _ fs₂ ⟨synced', hnode₂⟩
      refine ⟨synced', ?_⟩
      rw [hnode₂, hnode, Function.update_idem, List.flatten_cons, List.append_assoc]

theorem always_change {P : Files ν δ → Prop} {E : ε → Files ν δ → Prop}
    {R : Unit → Files ν δ → Prop} (hok : ∀ fs', c.apply fs = .ok fs' → P fs' ∧ R () fs')
    (herror : ∀ e fs', fs' = fs ∧ c.apply fs = .error e ∨ Fails (.change c) ∧ c.Torn fs fs' →
      P fs' ∧ E (failed e) fs') :
    Always (faulty Fails) P (change failed c : Task (requests ν δ) ε Unit) (Ends E R) fs := by
  refine Always.request ?_
  intro ans fs' hstep
  rcases step_change hstep with ⟨rfl, happly⟩ | ⟨e, rfl, hwhy⟩
  · exact hok fs' happly
  · exact herror e fs' (hwhy.imp id fun h => ⟨h.1, h.2.2⟩)

theorem always_change_andThen {β : Type} {P : Files ν δ → Prop} {E : ε → Files ν δ → Prop}
    {R : β → Files ν δ → Prop} {f : Unit → Task (requests ν δ) ε β}
    (hok : ∀ fs', c.apply fs = .ok fs' → P fs' ∧ Always (faulty Fails) P (f ()) (Ends E R) fs')
    (herror : ∀ e fs', fs' = fs ∧ c.apply fs = .error e ∨ Fails (.change c) ∧ c.Torn fs fs' →
      P fs' ∧ E (failed e) fs') :
    Always (faulty Fails) P (change failed c >>= f : Task (requests ν δ) ε β) (Ends E R) fs :=
  (always_change hok herror).andThen (Q := fun _ => Always (faulty Fails) P (f ()) (Ends E R))
    fun _ _ h => h

theorem always_syncDir {P : Files ν δ → Prop} {Steady : Prop} (hdir : fs.node p = some .dir)
    (hsafe : Steady → ¬ Fails (.change (.syncDir p))) (hP : P fs) :
    Always (faulty Fails) P (change failed (.syncDir p) : Task (requests ν δ) ε Unit)
      (Ends (fun _ fs' => fs' = fs ∧ ¬ Steady) fun _ fs' => fs' = fs) fs := by
  refine always_change ?_ ?_
  · intro fs' hsync
    obtain ⟨-, rfl⟩ := Files.syncDir_eq_ok.mp hsync
    exact ⟨hP, rfl⟩
  · intro e fs' hwhy
    have hsame : fs' = fs := hwhy.elim And.left And.right
    subst hsame
    refine ⟨hP, rfl, ?_⟩
    intro hs
    rcases hwhy with ⟨-, herror⟩ | ⟨hfails, -⟩
    · have hok : Change.apply fs' (.syncDir p) = .ok fs' := Files.syncDir_eq_ok.mpr ⟨hdir, rfl⟩
      exact absurd (hok.symm.trans herror) (by simp)
    · exact hsafe hs hfails

theorem always_createDirAll
    (hcalm : Calm → ¬ Fails (.change (.createDirAll p)) ∧ ∃ fs', fs.createDirAll p = .ok fs') :
    Always (faulty Fails) (fs.DirsTo p)
      (change failed (.createDirAll p) : Task (requests ν δ) ε Unit)
      (Ends (fun _ fs' => fs.DirsTo p fs' ∧ ¬ Calm)
        fun _ fs' => fs.DirsTo p fs' ∧ fs'.node p = some .dir) fs := by
  refine always_change ?_ ?_
  · intro fs' happly
    have hcreate : fs.createDirAll p = .ok fs' := happly
    have hdirs := Files.dirsTo_createDirAll hcreate
    exact ⟨hdirs, hdirs, (Files.createDirAll_spec hcreate).1 p List.suffix_rfl⟩
  · intro e fs' hwhy
    have hdirs : fs.DirsTo p fs' := by
      rcases hwhy with ⟨rfl, -⟩ | ⟨-, q, hq, hcreate⟩
      · exact .refl _ _
      · exact (Files.dirsTo_createDirAll hcreate).mono hq
    refine ⟨hdirs, hdirs, ?_⟩
    intro hc
    obtain ⟨hsafe, fs₁, hcreate⟩ := hcalm hc
    rcases hwhy with ⟨-, herror⟩ | ⟨hfails, -⟩
    · exact absurd (hcreate.symm.trans herror) (by simp)
    · exact hsafe hfails

theorem writeRest_yields
    (hsafe : Calm → (∀ b, ¬ Fails (.change (.append p b))) ∧ ¬ Fails (.change (.syncFile p)))
    (hfile : fs.node p = some (.file (.bytes []) false)) :
    Yields (faulty Fails) Calm
      (writeAll failed p pieces >>= fun _ => change failed (.syncFile p) :
        Task (requests ν δ) ε Unit)
      (fun _ fs' => fs'.node =
        Function.update fs.node p (some (.file (.bytes pieces.flatten) true))) fs := by
  refine Yields.andThen (writeAll_yields (fun hcalm => (hsafe hcalm).1) hfile) ?_
  rintro _ fs₁ ⟨synced, hnode₁⟩
  have hfile₁ : fs₁.node p = some (.file (.bytes pieces.flatten) synced) := by
    rw [hnode₁, Function.update_self, List.nil_append]
  refine Yields.weaken (change_yields ?_) id ?_
  · intro hcalm
    exact ⟨(hsafe hcalm).2, Files.exists_syncFile hfile₁⟩
  · intro _ fs₂ happly
    obtain ⟨content, _, hfile₂, hnode₂⟩ := Files.syncFile_eq_ok.mp happly
    obtain ⟨rfl, rfl⟩ : content = .bytes pieces.flatten ∧ _ := by
      simpa using hfile₂.symm.trans hfile₁
    rw [hnode₂, hnode₁, Function.update_idem]

theorem writeNew_always {Steady : Prop} (hsteady : Steady →
      (∀ b, ¬ Fails (.change (.append p b))) ∧ ¬ Fails (.change (.syncFile p)))
    (hcalm : Calm → Steady ∧ ¬ Fails (.change (.createNew p)) ∧
      ∃ fs', fs.create (.file (.bytes []) false) p = .ok fs') :
    Always (faulty Fails) (fs.GrownTo p) (writeNew failed p pieces)
      (Ends (fun _ fs' => fs.GrownTo p fs' ∧ (Steady → fs'.node p = fs.node p) ∧ ¬ Calm)
        fun _ fs' => fs.node p = none ∧
          fs'.node = Function.update fs.node p (some (.file (.bytes pieces.flatten) true))) fs := by
  refine always_change_andThen ?_ ?_
  · intro fs₁ happly
    have hcreate : fs.create (.file (.bytes []) false) p = .ok fs₁ := happly
    obtain ⟨-, habsent, hnode⟩ := Files.create_eq_ok.mp hcreate
    have hfile : fs₁.node p = some (.file (.bytes []) false) := by
      rw [hnode, Function.update_self]
    have hgrown : fs.GrownTo p fs₁ := Files.grownTo_create habsent hnode
    -- the rest of the program acts at the path only, which is new
    have hkeep : Always (faulty Fails) (fs.GrownTo p)
        (writeAll failed p pieces >>= fun _ => change failed (.syncFile p) :
          Task (requests ν δ) ε Unit) (fun _ => fs.GrownTo p) fs₁ := by
      refine Always.only (K := fun r => ∀ x, r.Creates x ∨ r.Alters x → x = p)
        (Prog.Only.andThen (writeAll_only ?_ pieces) fun _ => change_only ?_) ?_ hgrown
      · intro b x hx
        exact hx.elim False.elim id
      · intro x hx
        exact hx.elim False.elim id
      · intro r hr fs₂ ans fs₃ hstep hfs₂ x
        by_cases hx : x = p
        · rw [hx]
          exact .inr ⟨List.suffix_rfl, habsent, fun h => absurd rfl h⟩
        · rw [step_of_untouched hstep (fun hc => hx (hr x (.inl hc)))
            fun ha => hx (hr x (.inr ha))]
          exact hfs₂ x
    refine ⟨hgrown, ((writeRest_yields hsteady hfile).and hkeep).weaken (fun _ h => h.2) ?_⟩
    intro result fs₂ hresult
    cases result with
    | error e =>
      refine ⟨hresult.2, fun hs => absurd hs hresult.1, fun hc => hresult.1 (hcalm hc).1⟩
    | ok u =>
      refine ⟨habsent, ?_⟩
      rw [hresult.1, hnode, Function.update_idem]
  · intro e fs₁ hwhy
    have hsame : fs₁ = fs := by
      rcases hwhy with ⟨h, -⟩ | ⟨-, h⟩
      · exact h
      · exact h
    subst hsame
    refine ⟨.refl _ _, .refl _ _, fun _ => rfl, ?_⟩
    intro hc
    obtain ⟨-, hsafe, fs₂, hcreate⟩ := hcalm hc
    rcases hwhy with ⟨-, herror⟩ | ⟨hfails, -⟩
    · exact absurd (hcreate.symm.trans herror) (by simp)
    · exact hsafe hfails

theorem writeNew_yields (hsafe : Calm → ∀ r, ¬ Fails r)
    (hroom : Calm → ∃ fs', fs.create (.file (.bytes []) false) p = .ok fs') :
    Yields (faulty Fails) Calm (writeNew failed p pieces) (fun _ fs' => fs.node p = none ∧
      fs'.node = Function.update fs.node p (some (.file (.bytes pieces.flatten) true))) fs := by
  have hcalm : Calm → Calm ∧ ¬ Fails (.change (.createNew p)) ∧
      ∃ fs', fs.create (.file (.bytes []) false) p = .ok fs' :=
    fun hc => ⟨hc, hsafe hc _, hroom hc⟩
  refine (writeNew_always (fun hc => ⟨fun b => hsafe hc _, hsafe hc _⟩) hcalm).weaken
    (fun _ _ => trivial) ?_
  intro result fs' hresult
  cases result with
  | error e => exact hresult.2.2
  | ok u => exact hresult

end Programs

end FileSystem
