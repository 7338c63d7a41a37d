import Mathlib.Data.List.AList
import Weaver.Lib.Checked

/-!
# A store with versions and conditional batches

A store keeps a value under each key together with a version. Every write takes the next version of
the whole store, so a version is never used twice and a key that has the version it had before has
the value it had before. A batch of operations is committed as a whole: each operation states the
version it expects its key to have, and nothing is written unless all of them hold.

`commit_spec` says what a committed batch did, and `exists_commit` when a batch is committed.
`Store.Le` is what every later state of a store satisfies.
-/

namespace Versioned

open Checked

structure Entry (ν : Type) where
  version : UInt64
  value : ν
deriving DecidableEq

/-- The version that an operation expects of its key. -/
inductive Expected where
  | any
  | missing
  | exact (version : UInt64)
deriving DecidableEq

/-- The expectation holds of the version that a key has. -/
def Expected.Holds : Expected → Option UInt64 → Prop
  | .any, _ => True
  | .missing, actual => actual = none
  | .exact version, actual => actual = some version

instance (e : Expected) (actual : Option UInt64) : Decidable (e.Holds actual) :=
  match e with
  | .any => .isTrue trivial
  | .missing => inferInstanceAs (Decidable (actual = none))
  | .exact version => inferInstanceAs (Decidable (actual = some version))

inductive Operation (κ ν : Type) where
  | put (key : κ) (value : ν) (expected : Expected)
  | delete (key : κ) (expected : Expected)
deriving DecidableEq

def Operation.key {κ ν : Type} : Operation κ ν → κ
  | .put key _ _ => key
  | .delete key _ => key

def Operation.expected {κ ν : Type} : Operation κ ν → Expected
  | .put _ _ expected => expected
  | .delete _ expected => expected

/-- The entries, and the next version of a write and of a batch. -/
structure Store (κ ν : Type) where
  records : AList fun _ : κ => Entry ν
  nextRecord : UInt64
  nextCommit : UInt64

inductive Rejection (κ : Type) where
  | conflict (key : κ) (expected : Expected) (actual : Option UInt64)
  | recordOverflow
  | commitOverflow
deriving DecidableEq

variable {κ ν : Type} [DecidableEq κ]

def Store.get (s : Store κ ν) (k : κ) : Option (Entry ν) := s.records.lookup k

def Store.version (s : Store κ ν) (k : κ) : Option UInt64 := (s.get k).map Entry.version

def Store.empty : Store κ ν := ⟨∅, 1, 1⟩

/-! ## Commits -/

/-- The check of the expectations, in the order of the operations. -/
def Store.check (s : Store κ ν) : List (Operation κ ν) → Except (Rejection κ) Unit
  | [] => .ok ()
  | op :: rest => do
    failIf (¬ op.expected.Holds (s.version op.key))
      (.conflict op.key op.expected (s.version op.key))
    s.check rest

/-- One operation; a write takes the next version. -/
def Store.perform (s : Store κ ν) : Operation κ ν → Except (Rejection κ) (Store κ ν)
  | .put key value _ => do
    let next ← okOr (checkedAdd s.nextRecord 1) .recordOverflow
    return { s with records := s.records.insert key ⟨s.nextRecord, value⟩, nextRecord := next }
  | .delete key _ => .ok { s with records := s.records.erase key }

def Store.performAll (s : Store κ ν) : List (Operation κ ν) → Except (Rejection κ) (Store κ ν)
  | [] => .ok s
  | op :: rest => do
    let s' ← s.perform op
    s'.performAll rest

/-- A batch is committed as a whole, and takes the next version of batches. -/
def Store.commit (s : Store κ ν) (ops : List (Operation κ ν)) :
    Except (Rejection κ) (UInt64 × Store κ ν) := do
  s.check ops
  let s' ← s.performAll ops
  let next ← okOr (checkedAdd s.nextCommit 1) .commitOverflow
  return (s.nextCommit, { s' with nextCommit := next })

variable {s : Store κ ν} {ops : List (Operation κ ν)}

theorem Store.check_eq_ok {u : Unit} :
    s.check ops = .ok u ↔ ∀ op ∈ ops, op.expected.Holds (s.version op.key) := by
  induction ops with
  | nil => simp [Store.check]
  | cons op rest ih =>
    unfold Store.check
    simp only [bind_eq_ok, failIf_eq_ok, Decidable.not_not, ih, exists_and_left, exists_const,
      List.forall_mem_cons]

/-- What the operations of a batch leave of a store. -/
structure Performed (s s' : Store κ ν) (ops : List (Operation κ ν)) : Prop where
  /-- A written key has its value, under a version that was not used before. -/
  put : ∀ k v e, .put k v e ∈ ops →
    ∃ n, s'.get k = some ⟨n, v⟩ ∧ s.nextRecord ≤ n ∧ n < s'.nextRecord
  delete : ∀ k e, .delete k e ∈ ops → s'.get k = none
  other : ∀ k, (∀ op ∈ ops, op.key ≠ k) → s'.get k = s.get k
  next : s.nextRecord ≤ s'.nextRecord

variable {s' : Store κ ν}

variable {op : Operation κ ν}

theorem Store.perform_spec (h : s.perform op = .ok s') :
    Performed s s' [op] := by
  cases op with
  | put key value expected =>
    unfold Store.perform at h
    simp only [bind_eq_ok, okOr_eq_ok, pure_eq_ok_iff] at h
    obtain ⟨next, hnext, rfl⟩ := h
    have hone : (1 : UInt64).toNat = 1 := rfl
    rw [checkedAdd_eq_some, hone] at hnext
    have hlt : s.nextRecord < next := by
      rw [UInt64.lt_iff_toNat_lt]
      omega
    refine ⟨?_, ?_, ?_, hlt.le⟩
    · intro k v e hmem
      rw [List.mem_singleton, Operation.put.injEq] at hmem
      obtain ⟨rfl, rfl, rfl⟩ := hmem
      exact ⟨s.nextRecord, AList.lookup_insert s.records, le_rfl, hlt⟩
    · intro k e hmem
      cases List.mem_singleton.mp hmem
    · intro k hk
      have hne : key ≠ k := hk _ (List.mem_singleton.mpr rfl)
      exact AList.lookup_insert_ne hne.symm
  | delete key expected =>
    obtain rfl := Except.ok.inj h
    refine ⟨?_, ?_, ?_, le_rfl⟩
    · intro k v e hmem
      cases List.mem_singleton.mp hmem
    · intro k e hmem
      rw [List.mem_singleton, Operation.delete.injEq] at hmem
      obtain ⟨rfl, rfl⟩ := hmem
      exact AList.lookup_erase k s.records
    · intro k hk
      have hne : key ≠ k := hk _ (List.mem_singleton.mpr rfl)
      exact AList.lookup_erase_ne hne.symm

omit [DecidableEq κ] in
theorem key_ne_of_nodup {rest : List (Operation κ ν)} (h : ((op :: rest).map Operation.key).Nodup) :
    ∀ op' ∈ rest, op'.key ≠ op.key := by
  intro op' hmem heq
  rw [List.map_cons, List.nodup_cons] at h
  exact h.1 (List.mem_map.mpr ⟨op', hmem, heq⟩)

theorem Store.performAll_spec (hnd : (ops.map Operation.key).Nodup)
    (h : s.performAll ops = .ok s') :
    Performed s s' ops := by
  induction ops generalizing s with
  | nil =>
    obtain rfl := Except.ok.inj h
    exact ⟨by simp, by simp, fun _ _ => rfl, le_rfl⟩
  | cons op rest ih =>
    unfold Store.performAll at h
    obtain ⟨s₁, h₁, h⟩ := bind_eq_ok.mp h
    have hfirst := Store.perform_spec h₁
    have hrest := ih (List.nodup_cons.mp hnd).2 h
    -- the rest of the batch leaves the first operation's key alone
    have hkeep : s'.get op.key = s₁.get op.key := hrest.other _ (key_ne_of_nodup hnd)
    refine ⟨?_, ?_, ?_, hfirst.next.trans hrest.next⟩
    · intro k v e hmem
      rcases List.mem_cons.mp hmem with heq | hmem
      · obtain ⟨n, hget, hle, hlt⟩ := hfirst.put k v e (List.mem_singleton.mpr heq)
        refine ⟨n, ?_, hle, hlt.trans_le hrest.next⟩
        rw [← hget]
        rw [← heq] at hkeep
        exact hkeep
      · obtain ⟨n, hget, hle, hlt⟩ := hrest.put k v e hmem
        exact ⟨n, hget, hfirst.next.trans hle, hlt⟩
    · intro k e hmem
      rcases List.mem_cons.mp hmem with heq | hmem
      · have hnone := hfirst.delete k e (List.mem_singleton.mpr heq)
        rw [← heq] at hkeep
        exact hkeep.trans hnone
      · exact hrest.delete k e hmem
    · intro k hk
      rw [hrest.other k fun op' hop' => hk op' (List.mem_cons_of_mem _ hop')]
      refine hfirst.other k fun op' hop' => ?_
      rw [List.mem_singleton.mp hop']
      exact hk op List.mem_cons_self

theorem Store.commit_spec {v : UInt64} (hnd : (ops.map Operation.key).Nodup)
    (h : s.commit ops = .ok (v, s')) :
    (∀ op ∈ ops, op.expected.Holds (s.version op.key)) ∧ Performed s s' ops := by
  unfold Store.commit at h
  simp only [bind_eq_ok, okOr_eq_ok, pure_eq_ok_iff, Prod.mk.injEq] at h
  obtain ⟨u, hcheck, s₁, hperform, next, -, -, rfl⟩ := h
  have hp := Store.performAll_spec hnd hperform
  exact ⟨Store.check_eq_ok.mp hcheck, hp.put, hp.delete, hp.other, hp.next⟩

/-! ## Batches that are committed -/

/-- The versions for a batch of `n` operations are left. -/
structure Store.HasRoom (s : Store κ ν) (n : ℕ) : Prop where
  records : s.nextRecord.toNat + n < 2^64
  commits : s.nextCommit.toNat + 1 < 2^64

omit [DecidableEq κ] in
theorem exists_next {a : UInt64} (h : a.toNat + 1 < 2^64) :
    ∃ b, checkedAdd a 1 = some b ∧ b.toNat = a.toNat + 1 := by
  have hone : (1 : UInt64).toNat = 1 := rfl
  refine ⟨UInt64.ofNat (a.toNat + 1), ?_, UInt64.toNat_ofNat_of_lt' h⟩
  rw [checkedAdd_eq_some, hone]
  exact UInt64.toNat_ofNat_of_lt' h

theorem Store.exists_performAll (h : s.nextRecord.toNat + ops.length < 2^64) :
    ∃ s', s.performAll ops = .ok s' := by
  induction ops generalizing s with
  | nil => exact ⟨s, rfl⟩
  | cons op rest ih =>
    rw [List.length_cons] at h
    unfold Store.performAll
    cases op with
    | put key value expected =>
      obtain ⟨next, hnext, hval⟩ := exists_next (a := s.nextRecord) (by omega)
      have hperform : s.perform (.put key value expected) = .ok
          { s with records := s.records.insert key ⟨s.nextRecord, value⟩, nextRecord := next } := by
        unfold Store.perform
        rw [hnext]
        rfl
      rw [hperform, ok_bind]
      exact ih (by simp only [hval]; omega)
    | delete key expected =>
      rw [Store.perform, ok_bind]
      exact ih (by simp only; omega)

theorem Store.exists_commit (hexpected : ∀ op ∈ ops, op.expected.Holds (s.version op.key))
    (hroom : s.HasRoom ops.length) : ∃ v s', s.commit ops = .ok (v, s') := by
  obtain ⟨s₁, hperform⟩ := Store.exists_performAll hroom.records
  obtain ⟨next, hnext, -⟩ := exists_next hroom.commits
  have hcheck : s.check ops = .ok () := Store.check_eq_ok.mpr hexpected
  refine ⟨s.nextCommit, { s₁ with nextCommit := next }, ?_⟩
  unfold Store.commit
  rw [hcheck, ok_bind, hperform, ok_bind, hnext]
  rfl

theorem Store.performAll_next (h : s.performAll ops = .ok s') :
    s'.nextRecord.toNat ≤ s.nextRecord.toNat + ops.length ∧ s'.nextCommit = s.nextCommit := by
  induction ops generalizing s with
  | nil =>
    obtain rfl := Except.ok.inj h
    exact ⟨le_rfl, rfl⟩
  | cons op rest ih =>
    unfold Store.performAll at h
    obtain ⟨s₁, hperform, hrest⟩ := bind_eq_ok.mp h
    obtain ⟨hle, hcommit⟩ := ih hrest
    have hone : (1 : UInt64).toNat = 1 := rfl
    have hstep : s₁.nextRecord.toNat ≤ s.nextRecord.toNat + 1 ∧ s₁.nextCommit = s.nextCommit := by
      cases op with
      | put key value expected =>
        unfold Store.perform at hperform
        simp only [bind_eq_ok, okOr_eq_ok, checkedAdd_eq_some, pure_eq_ok_iff] at hperform
        obtain ⟨next, hnext, rfl⟩ := hperform
        exact ⟨by rw [hnext, hone], rfl⟩
      | delete key expected =>
        obtain rfl := Except.ok.inj hperform
        exact ⟨Nat.le_succ _, rfl⟩
    rw [List.length_cons]
    exact ⟨by omega, hcommit.trans hstep.2⟩

theorem Store.commit_next {v : UInt64} (h : s.commit ops = .ok (v, s')) :
    s'.nextRecord.toNat ≤ s.nextRecord.toNat + ops.length ∧
      s'.nextCommit.toNat = s.nextCommit.toNat + 1 := by
  unfold Store.commit at h
  simp only [bind_eq_ok, okOr_eq_ok, checkedAdd_eq_some, pure_eq_ok_iff, Prod.mk.injEq] at h
  obtain ⟨_, -, s₁, hperform, next, hnext, -, rfl⟩ := h
  obtain ⟨hle, hcommit⟩ := Store.performAll_next hperform
  have hone : (1 : UInt64).toNat = 1 := rfl
  exact ⟨hle, by rw [hnext, hone]⟩

/-! ## What holds over time -/

def Store.Sound (s : Store κ ν) : Prop := ∀ k e, s.get k = some e → e.version < s.nextRecord

/-- The second store may come after the first: an entry with an old version is an old entry. -/
structure Store.Le (s s' : Store κ ν) : Prop where
  next : s.nextRecord ≤ s'.nextRecord
  /-- An entry with a version that was used before is the entry that had it. -/
  old : ∀ k e, s'.get k = some e → e.version < s.nextRecord → s.get k = some e

theorem Store.Le.refl (s : Store κ ν) : s.Le s := ⟨le_rfl, fun _ _ h _ => h⟩

theorem Store.Le.trans {s₁ s₂ s₃ : Store κ ν} (h : s₁.Le s₂) (h' : s₂.Le s₃) : s₁.Le s₃ where
  next := h.next.trans h'.next
  old k e hget hlt := h.old k e (h'.old k e hget (hlt.trans_le h.next)) hlt

variable {e : Entry ν}

theorem Store.Le.eq_of_version (h : s.Le s') (hs : s.Sound) {k : κ} {e' : Entry ν}
    (hget : s.get k = some e) (hget' : s'.get k = some e') (hversion : e'.version = e.version) :
    e' = e := by
  have hlt : e'.version < s.nextRecord := by
    rw [hversion]
    exact hs k e hget
  have hold := h.old k e' hget' hlt
  rw [hget] at hold
  exact (Option.some.inj hold).symm

theorem Performed.get_cases (h : Performed s s' ops) {k : κ} (hget : s'.get k = some e) :
    (∃ v x, .put k v x ∈ ops ∧ e.value = v ∧ s.nextRecord ≤ e.version ∧ e.version < s'.nextRecord) ∨
      s.get k = some e := by
  by_cases hk : ∀ op ∈ ops, op.key ≠ k
  · exact .inr ((h.other k hk).symm.trans hget)
  · push Not at hk
    obtain ⟨op, hop, hkey⟩ := hk
    left
    cases op with
    | put key v x =>
      obtain rfl : key = k := hkey
      obtain ⟨n, hn, hle, hlt⟩ := h.put key v x hop
      rw [hget] at hn
      obtain rfl := Option.some.inj hn
      exact ⟨v, x, hop, rfl, hle, hlt⟩
    | delete key x =>
      obtain rfl : key = k := hkey
      rw [h.delete key x hop] at hget
      cases hget

theorem Performed.sound (h : Performed s s' ops) (hs : s.Sound) : s'.Sound := by
  intro k e hget
  rcases h.get_cases hget with ⟨v, x, -, -, -, hlt⟩ | hold
  · exact hlt
  · exact (hs k e hold).trans_le h.next

theorem Performed.le (h : Performed s s' ops) : s.Le s' where
  next := h.next
  old k e hget hlt := by
    rcases h.get_cases hget with ⟨v, x, -, -, hle, -⟩ | hold
    · exact absurd hlt hle.not_gt
    · exact hold

theorem Performed.fresh {s'' : Store κ ν} (h : Performed s s' ops) (hle : s'.Le s'')
    (hop : op ∈ ops) (hget : s''.get op.key = some e) :
    s.nextRecord ≤ e.version := by
  by_contra hlt
  rw [not_le] at hlt
  -- an old version would be that of an entry which the batch left
  have hold := hle.old op.key e hget (hlt.trans_le h.next)
  cases op with
  | put key value expected =>
    obtain ⟨n, hput, hnew, -⟩ := h.put key value expected hop
    obtain rfl := Option.some.inj (hold.symm.trans hput)
    exact absurd hnew hlt.not_ge
  | delete key expected => cases hold.symm.trans (h.delete key expected hop)

end Versioned
