import Weaver.Store.Redb

/-!
# Compare and swap

Clients share a state store: they read records and commit batches that expect the versions which
they have read. `SwapSafe` says what they can rely on, in any sequence of commands: a commit that
expects the version which its key had at an earlier moment takes effect only if nothing has written
the key since (`unwritten`), of two commits that expect the same version of a key only one takes
effect (`once`), and a batch takes effect as a whole and nowhere else (`AllOrNone`). It holds of the
store in memory, since every version is used only once, and of the database, since every command has
the same outcome on both (`compare_and_swap`).
-/

namespace Weaver

open Checked Wire Versioned

/-! ## What clients rely on -/

def AtomicBatch.Writes (batch : AtomicBatch) (key : StoreKey) : Prop :=
  ∃ op ∈ batch.operations, op.key = key

def AtomicBatch.Guards (batch : AtomicBatch) (key : StoreKey) (version : UInt64) : Prop :=
  ∃ op ∈ batch.operations, op.key = key ∧ op.expected = .exact version

def TookEffect (event : StoreCommand × StoreOutcome) (batch : AtomicBatch) : Prop :=
  ∃ scope edits results version, batch = builtBatch scope edits ∧
    event = (.commit scope edits, .committed results (.ok version))

variable {batch : AtomicBatch}

theorem TookEffect.command {c : StoreCommand} {outcome : StoreOutcome}
    (h : TookEffect (c, outcome) batch) :
    ∃ scope edits, c = .commit scope edits ∧ batch = builtBatch scope edits := by
  obtain ⟨scope, edits, _, _, hbatch, hevent⟩ := h
  exact ⟨scope, edits, (Prod.mk.inj hevent).1, hbatch⟩

section

variable {σ : Type}

def AllOrNone (B : Backend σ) (s : σ) (batch : AtomicBatch) : Prop :=
  (∃ e, (B.commit s batch).1 = .error e ∧
    ∀ scope key, B.read (B.commit s batch).2 scope key = B.read s scope key) ∨
  ∃ version, (B.commit s batch).1 = .ok version ∧
    (∀ key value expected, .put key value expected ∈ batch.operations →
      ∃ n, B.read (B.commit s batch).2 batch.scope key = .ok (some ⟨n, value⟩)) ∧
    (∀ key expected, .delete key expected ∈ batch.operations →
      B.read (B.commit s batch).2 batch.scope key = .ok none) ∧
    ∀ scope key, scope ≠ batch.scope ∨ ¬ batch.Writes key →
      B.read (B.commit s batch).2 scope key = B.read s scope key

structure SwapSafe (B : Backend σ) (s : σ) (cs : List StoreCommand) : Prop where
  /-- A commit expects the version that its key had at an earlier moment, and takes effect: no
  commit in between that took effect wrote the key. -/
  unwritten : ∀ cs₁ cs₂ cs₃ scope edits key record version,
    cs = cs₁ ++ cs₂ ++ .commit scope edits :: cs₃ →
    B.read (B.after s cs₁) scope key = .ok (some record) →
    (builtBatch scope edits).Guards key record.version →
    (B.commit (B.after s (cs₁ ++ cs₂)) (builtBatch scope edits)).1 = .ok version →
    ∀ event ∈ B.log (B.after s cs₁) cs₂, ∀ batch, TookEffect event batch → batch.scope = scope →
      ¬ batch.Writes key
  /-- Of two commits that expect the same version of a key, only one takes effect. -/
  once : ∀ cs₁ cs₂ cs₃ scope edits edits' key v version version',
    cs = cs₁ ++ .commit scope edits :: (cs₂ ++ .commit scope edits' :: cs₃) →
    (builtBatch scope edits).Guards key v → (builtBatch scope edits').Guards key v →
    (B.commit (B.after s cs₁) (builtBatch scope edits)).1 = .ok version →
    (B.commit (B.after s (cs₁ ++ .commit scope edits :: cs₂)) (builtBatch scope edits')).1 ≠
      .ok version'
  whole : ∀ cs₁ cs₂ scope edits, cs = cs₁ ++ .commit scope edits :: cs₂ →
    AllOrNone B (B.after s cs₁) (builtBatch scope edits)

end

/-! ## Batches on their scope -/

theorem AtomicBatch.editAll_scope (batch : AtomicBatch) (edits : List (Operation StoreKey Bytes)) :
    (batch.editAll edits).2.scope = batch.scope := by
  induction edits generalizing batch with
  | nil => rfl
  | cons op rest ih =>
    rw [AtomicBatch.editAll]
    cases hedit : batch.edit op with
    | error e => exact ih batch
    | ok batch' =>
      have hscope : batch'.scope = batch.scope := by
        cases op with
        | put key value expected => exact (AtomicBatch.put_eq_ok.mp hedit).2.2.1
        | delete key expected => exact (AtomicBatch.delete_eq_ok.mp hedit).2.1
      exact (ih batch').trans hscope

theorem builtBatch_scope (scope : StoreScope) (edits : List (Operation StoreKey Bytes)) :
    (builtBatch scope edits).scope = scope :=
  AtomicBatch.editAll_scope _ edits

theorem AtomicBatch.mem_scopedOperations {op : Operation StoreKey Bytes}
    (h : op ∈ batch.operations) : inScope batch.scope op ∈ batch.scopedOperations :=
  List.mem_map_of_mem h

theorem StateStore.version_of_guards {s s' : StateStore} {version v : UInt64} {key : StoreKey}
    (h : s.commitBatch batch = .ok (version, s')) (hguards : batch.Guards key v) :
    ∃ e, s.get (batch.scope, key) = some e ∧ e.version = v := by
  obtain ⟨op, hop, rfl, hexpected⟩ := hguards
  have hholds := (StateStore.commitBatch_spec h).1 _ (batch.mem_scopedOperations hop)
  have hsame : (inScope batch.scope op).expected = op.expected := by cases op <;> rfl
  rw [hsame, hexpected, inScope_key] at hholds
  exact Option.map_eq_some_iff.mp hholds

/-! ## The store in memory -/

namespace MemoryState

variable {m : MemoryState} {s : StateStore}

theorem Represents.step (h : m.Represents s) {c : StoreCommand} (hadmits : m.Admits c) :
    ((memoryBackend.step m c).2 = m ∧ ∀ batch, ¬ TookEffect (c, (memoryBackend.step m c).1) batch) ∨
      ∃ scope edits version s', c = .commit scope edits ∧
        s.commitBatch (builtBatch scope edits) = .ok (version, s') ∧
        (memoryBackend.step m c).2.Represents s' := by
  cases c with
  | commit scope edits =>
    rcases h.commit_cases hadmits with ⟨e, hm, -⟩ | ⟨version, m', s', hm, hs, h'⟩
    · have hstep : memoryBackend.step m (.commit scope edits) =
          (.committed ((AtomicBatch.new scope).editAll edits).1 (.error e), m) := by
        rw [Backend.step, show memoryBackend.commit m (builtBatch scope edits) = _ from hm]
      rw [hstep]
      refine .inl ⟨rfl, ?_⟩
      rintro batch ⟨_, _, results, version, -, hevent⟩
      cases (StoreOutcome.committed.inj (Prod.mk.inj hevent).2).2
    · have hstep : (memoryBackend.step m (.commit scope edits)).2 = m' := by
        rw [Backend.step, show memoryBackend.commit m (builtBatch scope edits) = _ from hm]
      rw [hstep]
      exact .inr ⟨scope, edits, version, s', rfl, hs, h'⟩
  | read scope key =>
    refine .inl ⟨rfl, fun batch heffect => ?_⟩
    obtain ⟨_, _, hcommand, -⟩ := heffect.command
    cases hcommand
  | scan scope start =>
    refine .inl ⟨rfl, fun batch heffect => ?_⟩
    obtain ⟨_, _, hcommand, -⟩ := heffect.command
    cases hcommand
  | reopen =>
    refine .inl ⟨rfl, fun batch heffect => ?_⟩
    obtain ⟨_, _, hcommand, -⟩ := heffect.command
    cases hcommand

variable {cs : List StoreCommand}

theorem Represents.after (h : m.Represents s) (hs : s.Sound) (hfits : m.Fits cs) :
    ∃ s', (memoryBackend.after m cs).Represents s' ∧ s.Le s' ∧ s'.Sound := by
  induction cs generalizing m s with
  | nil => exact ⟨s, h, .refl s, hs⟩
  | cons c rest ih =>
    obtain ⟨hadmits, hrest⟩ := hfits
    rcases h.step hadmits with ⟨hsame, -⟩ | ⟨scope, edits, version, s₁, -, hcommit, h₁⟩
    · rw [Backend.after, hsame]
      rw [hsame] at hrest
      exact ih h hs hrest
    · have hperformed := (StateStore.commitBatch_spec hcommit).2
      obtain ⟨s', h', hle, hsound⟩ := ih h₁ (hperformed.sound hs) hrest
      exact ⟨s', h', hperformed.le.trans hle, hsound⟩

theorem Represents.fresh (h : m.Represents s) (hs : s.Sound) (hfits : m.Fits cs)
    {event : StoreCommand × StoreOutcome} (hevent : event ∈ memoryBackend.log m cs)
    (heffect : TookEffect event batch) {key : StoreKey} (hwrites : batch.Writes key)
    {e : VersionedBytes} (hget : (memoryBackend.after m cs).get batch.scope key = some e) :
    s.nextRecord ≤ e.version := by
  induction cs generalizing m s with
  | nil => cases hevent
  | cons c rest ih =>
    obtain ⟨hadmits, hrest⟩ := hfits
    rcases h.step hadmits with ⟨hsame, hquiet⟩ | ⟨scope, edits, version, s₁, hc, hcommit, h₁⟩
    · rcases List.mem_cons.mp hevent with rfl | hevent
      · exact absurd heffect (hquiet batch)
      · rw [Backend.after, hsame] at hget
        rw [hsame] at hrest hevent
        exact ih h hs hrest hevent hget
    · have hperformed := (StateStore.commitBatch_spec hcommit).2
      have hs₁ := hperformed.sound hs
      rcases List.mem_cons.mp hevent with rfl | hevent
      · -- the commit is the first command
        obtain ⟨scope', edits', hc', rfl⟩ := heffect.command
        obtain ⟨rfl, rfl⟩ := StoreCommand.commit.inj (hc.symm.trans hc')
        obtain ⟨s', h', hle, -⟩ := h₁.after hs₁ hrest
        obtain ⟨op, hop, rfl⟩ := hwrites
        refine hperformed.fresh hle (AtomicBatch.mem_scopedOperations hop) ?_
        rw [inScope_key, ← h'.get]
        exact hget
      · exact hperformed.next.trans (ih h₁ hs₁ hrest hevent hget)

theorem Represents.allOrNone (h : m.Represents s) (hroom : m.HasRoomFor batch) :
    AllOrNone memoryBackend m batch := by
  unfold AllOrNone
  rcases h.commit_cases hroom with ⟨e, hm, -⟩ | ⟨version, m', s', hm, hs, h'⟩
  · rw [show memoryBackend.commit m batch = _ from hm]
    exact .inl ⟨e, rfl, fun _ _ => rfl⟩
  · rw [show memoryBackend.commit m batch = _ from hm]
    have hperformed := (StateStore.commitBatch_spec hs).2
    have hread : ∀ scope key, memoryBackend.read m' scope key = .ok (s'.get (scope, key)) :=
      fun scope key => congrArg Except.ok (h'.get scope key)
    refine .inr ⟨version, rfl, ?_, ?_, ?_⟩
    · intro key value expected hop
      obtain ⟨n, hput, -⟩ := hperformed.put _ _ _ (AtomicBatch.mem_scopedOperations hop)
      exact ⟨n, (hread _ _).trans (congrArg Except.ok hput)⟩
    · intro key expected hop
      exact (hread _ _).trans
        (congrArg Except.ok (hperformed.delete _ _ (AtomicBatch.mem_scopedOperations hop)))
    · intro scope key hother
      rw [hread, hperformed.other]
      · exact congrArg Except.ok (h.get scope key).symm
      · -- no operation of the batch is on the key in the scope
        intro op hop heq
        obtain ⟨op', hop', rfl⟩ := List.mem_map.mp hop
        obtain ⟨hscope, hkey⟩ := Prod.mk.inj ((inScope_key batch.scope op').symm.trans heq)
        rcases hother with hne | hne
        · exact hne hscope.symm
        · exact hne ⟨op', hop', hkey⟩

theorem Represents.version_of_guards (h : m.Represents s) {scope : StoreScope}
    {edits : List (Operation StoreKey Bytes)} {key : StoreKey} {v version : UInt64}
    (hroom : m.HasRoomFor (builtBatch scope edits))
    (hok : (memoryBackend.commit m (builtBatch scope edits)).1 = .ok version)
    (hguards : (builtBatch scope edits).Guards key v) :
    ∃ e, s.get (scope, key) = some e ∧ e.version = v := by
  rcases h.commit_cases hroom with ⟨e, hm, -⟩ | ⟨version', m', s', hm, hs, -⟩
  · rw [show memoryBackend.commit m (builtBatch scope edits) = _ from hm] at hok
    cases hok
  · have hversion := StateStore.version_of_guards hs hguards
    rw [builtBatch_scope] at hversion
    exact hversion

theorem represents_after {cs₁ cs₂ : List StoreCommand} (hfits : new.Fits (cs₁ ++ cs₂)) :
    (memoryBackend.after new cs₁).Fits cs₂ ∧
      ∃ s, (memoryBackend.after new cs₁).Represents s ∧ s.Sound := by
  obtain ⟨hfits₁, hfits₂⟩ := fits_append.mp hfits
  have hempty : Versioned.Store.Sound (Versioned.Store.empty : StateStore) := by
    intro key entry hget
    cases (AList.lookup_empty (β := fun _ => Entry Bytes) key).symm.trans hget
  obtain ⟨s, h, -, hs⟩ := represents_new.after hempty hfits₁
  exact ⟨hfits₂, s, h, hs⟩

theorem swapSafe (hfits : new.Fits cs) : SwapSafe memoryBackend new cs := by
  refine ⟨?_, ?_, ?_⟩
  · intro cs₁ cs₂ cs₃ scope edits key record version hcs hread hguards hok event hevent batch heffect
      hscope hwrites
    rw [hcs, List.append_assoc] at hfits
    obtain ⟨hfits₁, s₁, h₁, hs₁⟩ := represents_after hfits
    obtain ⟨hfits₂, hadmits, -⟩ := fits_append.mp hfits₁
    obtain ⟨s₂, h₂, -, -⟩ := h₁.after hs₁ hfits₂
    rw [Backend.after_append] at hok
    have hold : s₁.get (scope, key) = some record := by
      rw [← h₁.get]
      exact Except.ok.inj hread
    -- a version that a commit in between left would be newer than the one that was read
    obtain ⟨e, hget, hversion⟩ := h₂.version_of_guards hadmits hok hguards
    have hnew := h₁.fresh hs₁ hfits₂ hevent heffect hwrites (by rw [hscope, h₂.get, hget])
    have hlt := hs₁ _ _ hold
    rw [hversion] at hnew
    exact absurd hnew hlt.not_ge
  · intro cs₁ cs₂ cs₃ scope edits edits' key v version version' hcs hguards hguards' hok hok'
    rw [hcs] at hfits
    obtain ⟨hfits₁, s₁, h₁, hs₁⟩ := represents_after hfits
    rw [← List.cons_append] at hfits₁
    obtain ⟨hfits₂, hadmits', -⟩ := fits_append.mp hfits₁
    obtain ⟨s₂, h₂, -, -⟩ := h₁.after hs₁ hfits₂
    rw [Backend.after_append] at hok'
    obtain ⟨e, hget, hversion⟩ := h₁.version_of_guards hfits₂.1 hok hguards
    obtain ⟨e', hget', hversion'⟩ := h₂.version_of_guards hadmits' hok' hguards'
    -- the first commit wrote the key
    have heffect : TookEffect (.commit scope edits,
        (memoryBackend.step (memoryBackend.after new cs₁) (.commit scope edits)).1)
        (builtBatch scope edits) := by
      refine ⟨scope, edits, ((AtomicBatch.new scope).editAll edits).1, version, rfl, ?_⟩
      rw [Backend.step, hok]
    obtain ⟨op, hop, hkey, -⟩ := hguards
    have hnew := h₁.fresh hs₁ hfits₂ List.mem_cons_self heffect ⟨op, hop, hkey⟩
      (by rw [builtBatch_scope, h₂.get, hget'])
    have hlt := hs₁ _ _ hget
    rw [hversion'] at hnew
    rw [hversion] at hlt
    exact absurd hnew hlt.not_ge
  · intro cs₁ cs₂ scope edits hcs
    rw [hcs] at hfits
    obtain ⟨hfits₁, s₁, h₁, -⟩ := represents_after hfits
    exact h₁.allOrNone hfits₁.1

end MemoryState

/-! ## The database -/

namespace Database

variable {db : Database} {m : MemoryState}

theorem Keeps.allOrNone (h : db.Keeps m) (hroom : m.HasRoomFor batch)
    (hall : AllOrNone memoryBackend m batch) : AllOrNone redbBackend db batch := by
  obtain ⟨hresult, hkeeps⟩ := h.commit_eq hroom
  have hbefore : ∀ scope key, redbBackend.read db scope key = memoryBackend.read m scope key :=
    fun scope key => h.read scope key
  have hafter : ∀ scope key, redbBackend.read (redbBackend.commit db batch).2 scope key =
      memoryBackend.read (memoryBackend.commit m batch).2 scope key :=
    fun scope key => hkeeps.read scope key
  have hresult' : (redbBackend.commit db batch).1 = (memoryBackend.commit m batch).1 := hresult
  unfold AllOrNone
  simp only [hresult', hbefore, hafter]
  exact hall

theorem Keeps.swapSafe (h : db.Keeps m) {cs : List StoreCommand} (hfits : m.Fits cs)
    (hsafe : SwapSafe memoryBackend m cs) : SwapSafe redbBackend db cs := by
  -- the results after the first commands are those of the store in memory
  have hafter : ∀ {cs₁ cs₂}, cs = cs₁ ++ cs₂ → (memoryBackend.after m cs₁).Fits cs₂ ∧
      (redbBackend.after db cs₁).Keeps (memoryBackend.after m cs₁) := by
    intro cs₁ cs₂ hcs
    rw [hcs] at hfits
    obtain ⟨hfits₁, hfits₂⟩ := MemoryState.fits_append.mp hfits
    exact ⟨hfits₂, (h.run hfits₁).2⟩
  have hcommit : ∀ {cs₁ cs₂ scope edits}, cs = cs₁ ++ .commit scope edits :: cs₂ →
      (redbBackend.commit (redbBackend.after db cs₁) (builtBatch scope edits)).1 =
        (memoryBackend.commit (memoryBackend.after m cs₁) (builtBatch scope edits)).1 := by
    intro cs₁ cs₂ scope edits hcs
    obtain ⟨hfits₁, hkeeps⟩ := hafter hcs
    exact (hkeeps.commit_eq hfits₁.1).1
  refine ⟨?_, ?_, ?_⟩
  · intro cs₁ cs₂ cs₃ scope edits key record version hcs hread hguards hok event hevent
    rw [hcommit hcs] at hok
    obtain ⟨hfits₁, hkeeps⟩ := hafter (hcs.trans (List.append_assoc _ _ _))
    have hread' : memoryBackend.read (memoryBackend.after m cs₁) scope key = .ok (some record) :=
      (hkeeps.read scope key).symm.trans hread
    rw [(hkeeps.run (MemoryState.fits_append.mp hfits₁).1).1] at hevent
    exact hsafe.unwritten cs₁ cs₂ cs₃ scope edits key record version hcs hread' hguards hok event
      hevent
  · intro cs₁ cs₂ cs₃ scope edits edits' key v version version' hcs hguards hguards' hok
    rw [hcommit hcs] at hok
    have hcs' : cs = (cs₁ ++ .commit scope edits :: cs₂) ++ .commit scope edits' :: cs₃ := by
      rw [hcs, List.append_assoc, List.cons_append]
    rw [hcommit hcs']
    exact hsafe.once cs₁ cs₂ cs₃ scope edits edits' key v version version' hcs hguards hguards' hok
  · intro cs₁ cs₂ scope edits hcs
    obtain ⟨hfits₁, hkeeps⟩ := hafter hcs
    exact hkeeps.allOrNone hfits₁.1 (hsafe.whole cs₁ cs₂ scope edits hcs)

end Database

/-- Compare and swap is free of ABA and of lost updates. Any sequence of commands of any clients, on
a new store in memory or on the database in a new file, is safe as long as the counters of versions
do not overflow: a commit that expects the version which its key had at an earlier moment takes
effect only if no commit has written or deleted the key since, two commits that expect the same
version of a key never both take effect, and a batch takes effect on all its keys or on none, and on
no other record. -/
theorem compare_and_swap {cs : List StoreCommand} (hfits : MemoryState.new.Fits cs) :
    SwapSafe memoryBackend MemoryState.new cs ∧
      ∃ db, Database.initialize Database.create = .ok db ∧ SwapSafe redbBackend db cs := by
  have hsafe := MemoryState.swapSafe hfits
  obtain ⟨db, hopen, hkeeps⟩ := Database.keeps_create
  exact ⟨hsafe, db, hopen, hkeeps.swapSafe hfits hsafe⟩

end Weaver

namespace Weaver.Sample

/-- The sample commands are safe on both stores. -/
theorem compare_and_swap_sample : SwapSafe memoryBackend MemoryState.new storeCommands ∧
    ∃ db, Database.initialize Database.create = .ok db ∧ SwapSafe redbBackend db storeCommands :=
  compare_and_swap storeCommands_fit

end Weaver.Sample
