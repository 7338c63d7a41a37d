import Weaver.Store.Stores

/-!
# Requests of a store program

The requests that a store program makes, with the errors that its caller gives to a failed one, and
what each of them does when the stores answer at once.
-/

namespace Weaver

open Checked Wire Versioned Program

variable {ε α : Type}

/-- `StateStore::read`. -/
def readOr (failed : StoreError → ε) (scope : StoreScope) (key : StoreKey) :
    StoreTask ε (Option VersionedBytes) :=
  Task.request (.read scope key) fun answer => answer.mapError failed

/-- `StateStore::read`, of a record that has to be there. -/
def readExistingOr (failed : StoreError → ε) (missing : ε) (scope : StoreScope) (key : StoreKey) :
    StoreTask ε VersionedBytes :=
  Task.request (.read scope key) fun answer => do okOr (← answer.mapError failed) missing

/-- `StateStore::commit`. -/
def commitOr (failed : StoreError → ε) (batch : AtomicBatch) : StoreTask ε UInt64 :=
  Task.request (.commit batch) fun answer => answer.mapError failed

/-- `StateStore::commit`, by a caller that looks at the error itself. -/
def tryCommit (batch : AtomicBatch) : StoreTask ε (Except StoreError UInt64) :=
  Task.request (.commit batch) Except.ok

/-- `SecretStore::open`, by a caller that looks at the error itself. -/
def tryOpenSecret (id : SecretId) : StoreTask ε (Except SecretStoreError Bytes) :=
  Task.request (.openSecret id) Except.ok

/-- `SecretStore::seal`, by a caller that looks at the error itself. -/
def trySealSecret (id : SecretId) (plaintext : Bytes) :
    StoreTask ε (Except SecretStoreError Unit) :=
  Task.request (.sealSecret id plaintext) Except.ok

/-- `SecretStore::delete`, by a caller that looks at the error itself. -/
def tryDeleteSecret (id : SecretId) : StoreTask ε (Except SecretStoreError Unit) :=
  Task.request (.deleteSecret id) Except.ok

/-- `StateStore::scan_prefix`, with the entries of its stream. -/
def scanPrefixOr (failed : StoreError → ε) (scope : StoreScope) (start : Bytes) :
    StoreTask ε (List StoredEntry) :=
  Task.request (.scanPrefix scope start) fun answer => answer.mapError failed

/-! ## Runs -/

variable {w w' : Stores} {failed : StoreError → ε} {missing : ε} {scope : StoreScope}
  {key : StoreKey} {batch : AtomicBatch} {b : α} {r : Except ε α}

theorem readOr_bind_run {f : Option VersionedBytes → StoreTask ε α} :
    (readOr failed scope key >>= f).run serve w = (f (w.record scope key)).run serve w := by
  rw [Task.run_bind]
  rfl

variable {f : VersionedBytes → StoreTask ε α}

theorem readExistingOr_bind_eq_ok :
    (readExistingOr failed missing scope key >>= f).run serve w = (.ok b, w') ↔
      ∃ record, w.record scope key = some record ∧ (f record).run serve w = (.ok b, w') := by
  have hrun : (readExistingOr failed missing scope key).run serve w =
      (okOr (w.record scope key) missing, w) := rfl
  rw [Task.run_bind, hrun]
  cases w.record scope key <;> simp

theorem readExistingOr_bind_cases
    (h : (readExistingOr failed missing scope key >>= f).run serve w = (r, w')) :
    (∃ e, r = .error e ∧ w' = w) ∨
      ∃ record, w.record scope key = some record ∧ (f record).run serve w = (r, w') := by
  have hrun : (readExistingOr failed missing scope key).run serve w =
      (okOr (w.record scope key) missing, w) := rfl
  rw [Task.run_bind, hrun] at h
  cases hrecord : w.record scope key with
  | none =>
    rw [hrecord] at h
    obtain ⟨hr, hw⟩ := Prod.mk.inj h
    exact .inl ⟨missing, hr.symm, hw.symm⟩
  | some record =>
    rw [hrecord] at h
    exact .inr ⟨record, rfl, h⟩

theorem readExistingOr_bind_run {record : VersionedBytes} (h : w.record scope key = some record) :
    (readExistingOr failed missing scope key >>= f).run serve w = (f record).run serve w := by
  have hrun : (readExistingOr failed missing scope key).run serve w =
      (okOr (w.record scope key) missing, w) := rfl
  rw [Task.run_bind, hrun, h]
  rfl

theorem commitOr_bind_eq_ok {f : UInt64 → StoreTask ε α} :
    (commitOr failed batch >>= f).run serve w = (.ok b, w') ↔
      ∃ version w₁, w.state.commitBatch batch = .ok (version, w₁.state) ∧
        w₁.secrets = w.secrets ∧ (f version).run serve w₁ = (.ok b, w') := by
  have hserve : (commitOr failed batch).run serve w =
      ((w.commit batch).1.mapError failed, (w.commit batch).2) := rfl
  rw [Task.run_bind_eq_ok, hserve]
  simp only [Prod.mk.injEq, mapError_eq_ok]
  constructor
  · rintro ⟨version, w₁, ⟨hanswer, hw₁⟩, hf⟩
    obtain ⟨hcommit, hsecrets⟩ := Stores.commit_eq_ok.mp (Prod.ext hanswer hw₁)
    exact ⟨version, w₁, hcommit, hsecrets, hf⟩
  · rintro ⟨version, w₁, hcommit, hsecrets, hf⟩
    have heq := Stores.commit_eq_ok.mpr ⟨hcommit, hsecrets⟩
    exact ⟨version, w₁, ⟨congrArg Prod.fst heq, congrArg Prod.snd heq⟩, hf⟩

theorem commitOr_bind_cases {f : UInt64 → StoreTask ε α}
    (h : (commitOr failed batch >>= f).run serve w = (r, w')) :
    (∃ e, r = .error e ∧ w' = w) ∨
      ∃ version w₁, w.state.commitBatch batch = .ok (version, w₁.state) ∧
        w₁.secrets = w.secrets ∧ (f version).run serve w₁ = (r, w') := by
  have hserve : (commitOr failed batch).run serve w =
      ((w.commit batch).1.mapError failed, (w.commit batch).2) := rfl
  rw [Task.run_bind, hserve] at h
  cases hc : w.state.commitBatch batch with
  | error e =>
    rw [Stores.commit_of_error hc] at h
    obtain ⟨hr, hw⟩ := Prod.mk.inj h
    exact .inl ⟨failed e, hr.symm, hw.symm⟩
  | ok result =>
    obtain ⟨version, state⟩ := result
    rw [Stores.commit_of_ok hc] at h
    exact .inr ⟨version, { w with state }, rfl, rfl, h⟩

theorem tryCommit_bind_run {f : Except StoreError UInt64 → StoreTask ε α} :
    (tryCommit batch >>= f).run serve w =
      (f (w.commit batch).1).run serve (w.commit batch).2 := by
  rw [Task.run_bind]
  rfl

/-! ## The versions along a run -/

def Stores.Later (w w' : Stores) : Prop :=
  w.state.Le w'.state ∧ (w.state.Sound → w'.state.Sound)

theorem Stores.Later.trans {w₁ w₂ w₃ : Stores} (h : w₁.Later w₂) (h' : w₂.Later w₃) : w₁.Later w₃ :=
  ⟨h.1.trans h'.1, fun hsound => h'.2 (h.2 hsound)⟩

theorem serve_later (w : Stores) (r : StoreRequest) : w.Later (serve w r).2 := by
  have hsame : w.Later w := ⟨.refl _, id⟩
  cases r with
  | read scope key => exact hsame
  | commit batch =>
    change w.Later (w.commit batch).2
    cases hcommit : w.state.commitBatch batch with
    | error e =>
      rw [Stores.commit_of_error hcommit]
      exact hsame
    | ok result =>
      obtain ⟨version, state⟩ := result
      rw [Stores.commit_of_ok hcommit]
      obtain ⟨-, hperformed⟩ := StateStore.commitBatch_spec hcommit
      exact ⟨hperformed.le, hperformed.sound⟩
  | scanPrefix scope start => exact hsame
  | openSecret id => exact hsame
  | sealSecret id plaintext => exact hsame
  | deleteSecret id => exact hsame

theorem run_later (p : Prog storeInterface α) (w : Stores) : w.Later (p.run serve w).2 :=
  p.only_true.run_rel (R := Stores.Later) (fun _ => ⟨.refl _, id⟩)
    (fun _ _ _ => Stores.Later.trans) (fun w r _ => serve_later w r) w

/-! ## The keys along a run -/

def WritesOnly (key : StoreKey) (r : StoreRequest) : Prop :=
  ∀ batch, r = .commit batch → ∀ op ∈ batch.operations, op.key = key

theorem record_of_writesOnly {key other : StoreKey} {p : Prog storeInterface α}
    (h : p.Only (WritesOnly key)) (hne : other ≠ key) (scope : StoreScope) (w : Stores) :
    (p.run serve w).2.record scope other = w.record scope other := by
  refine h.run_rel (R := fun w w' => w'.record scope other = w.record scope other)
    (fun _ => rfl) ?_ ?_ w
  · intro w₁ w₂ w₃ h₁ h₂
    exact h₂.trans h₁
  intro w r hr
  cases r with
  | read scope key => rfl
  | commit batch =>
    change (w.commit batch).2.record scope other = _
    rcases hcommit : w.commit batch with ⟨_ | version, w₁⟩
    · unfold Stores.commit at hcommit
      split at hcommit
      · cases hcommit
      · exact congrArg (fun w => w.record scope other) (Prod.mk.inj hcommit).2.symm
    · obtain ⟨hstate, -⟩ := Stores.commit_eq_ok.mp hcommit
      by_cases hscope : batch.scope = scope
      · rw [← hscope]
        refine Stores.record_of_other hstate ?_
        intro op hop heq
        exact hne (heq.symm.trans (hr batch rfl op hop))
      · exact Stores.record_of_scope hstate hscope other
  | scanPrefix scope start => rfl
  | openSecret id => rfl
  | sealSecret id plaintext => rfl
  | deleteSecret id => rfl

end Weaver
