import Weaver.Store.Requests

/-!
# Rules for store programs

How the requests of a store program are verified among other processes, under any contract of the
stores: a read returns a record of some later state and changes nothing, a commit leaves the batch
committed or nothing changed, and an error of the backend only ends the program.
-/

namespace Weaver

open Checked Wire Versioned Program

variable {ε α β : Type} {C : Contract Stores} {G : Stores → Stores → Prop} {w : Stores}

variable {scope : StoreScope} {f : α → StoreTask ε β} {R : β → Stores → Prop}

theorem Safe.read_andThen (hstay : ∀ w, G w w) {key : StoreKey}
    {g : Except StoreError (Option VersionedBytes) → Except ε α} (hg : ∀ e a, g (.error e) ≠ .ok a)
    (h : ∀ w₁, C.Le w w₁ → C.Inv w₁ → ∀ a, g (.ok (w₁.record scope key)) = .ok a →
      Safe storeMachine C G (f a) (OnOk R) w₁) :
    Safe storeMachine C G (Task.request (.read scope key) g >>= f : StoreTask ε β) (OnOk R) w := by
  refine Safe.request_andThen ?_
  intro w₁ hle hinv answer w₂ hstep
  obtain ⟨rfl, hrecord⟩ := storeMachine_read hstep
  refine ⟨hstay _, ?_⟩
  intro a ha
  cases answer with
  | error e => exact absurd ha (hg e a)
  | ok record =>
    rw [hrecord record rfl] at ha
    exact h _ hle hinv a ha

variable {batch : AtomicBatch}

theorem Safe.commit_andThen (hstay : ∀ w, G w w) {g : Except StoreError UInt64 → Except ε α}
    (hg : ∀ e a, g (.error e) ≠ .ok a)
    (h : ∀ w₁, C.Le w w₁ → C.Inv w₁ → ∀ version w₂,
      w₁.state.commitBatch batch = .ok (version, w₂.state) → w₂.secrets = w₁.secrets →
      G w₁ w₂ ∧ ∀ a, Safe storeMachine C G (f a) (OnOk R) w₂) :
    Safe storeMachine C G (Task.request (.commit batch) g >>= f : StoreTask ε β) (OnOk R) w := by
  refine Safe.request_andThen ?_
  intro w₁ hle hinv answer w₂ hstep
  rcases storeMachine_commit hstep with ⟨rfl, hanswer⟩ | ⟨version, hcommit, hsecrets⟩
  · refine ⟨hstay _, ?_⟩
    intro a ha
    cases answer with
    | error e => exact absurd ha (hg e a)
    | ok version => exact absurd rfl (hanswer version)
  · obtain ⟨hG, hf⟩ := h w₁ hle hinv version w₂ hcommit hsecrets
    exact ⟨hG, fun a _ => hf a⟩

variable {id : SecretId}

theorem Safe.openSecret_andThen (hstay : ∀ w, G w w)
    {g : Except SecretStoreError Bytes → Except ε α} (hg : ∀ e a, g (.error e) ≠ .ok a)
    (h : ∀ w₁, C.Le w w₁ → C.Inv w₁ → ∀ a, g (w₁.secrets.open id) = .ok a →
      Safe storeMachine C G (f a) (OnOk R) w₁) :
    Safe storeMachine C G (Task.request (.openSecret id) g >>= f : StoreTask ε β) (OnOk R) w := by
  refine Safe.request_andThen ?_
  intro w₁ hle hinv answer w₂ hstep
  rcases hstep with hserve | ⟨message, hanswer, hw⟩
  · obtain ⟨rfl, rfl⟩ := Prod.mk.inj hserve
    exact ⟨hstay _, fun a ha => h _ hle hinv a ha⟩
  · have hw' : w₂ = w₁ := or_self_iff.mp hw
    refine ⟨hw' ▸ hstay w₁, ?_⟩
    intro a ha
    rw [hanswer] at ha
    exact absurd ha (hg _ a)

variable {plaintext : Bytes}

theorem Safe.sealSecret (hstay : ∀ w, G w w) {g : Except SecretStoreError Unit → Except ε α}
    {R : α → Stores → Prop} (hseal : ∀ w, G w { w with secrets := (w.secrets.seal id plaintext).2 })
    (hR : ∀ a w', R a w') :
    Safe storeMachine C G (Task.request (.sealSecret id plaintext) g : StoreTask ε α) (OnOk R)
      w := by
  refine Safe.request ?_
  intro w₁ hle hinv answer w₂ hstep
  refine ⟨?_, fun a _ => hR a w₂⟩
  rcases hstep with hserve | ⟨message, -, hw⟩
  · obtain ⟨-, rfl⟩ := Prod.mk.inj hserve
    exact hseal w₁
  · rcases hw with rfl | rfl
    · exact hstay _
    · exact hseal w₁

/-! ## Answers that the caller looks at -/

variable {w' : Stores}

theorem storeMachine_open {answer : Except SecretStoreError Bytes}
    (h : storeMachine w (.openSecret id) answer w') :
    w' = w ∧ ∀ secret, answer = .ok secret → w.secrets.open id = .ok secret := by
  rcases h with h | ⟨message, rfl, hw⟩
  · obtain ⟨rfl, rfl⟩ := Prod.mk.inj h
    exact ⟨rfl, fun secret hsecret => hsecret⟩
  · have hw' : w' = w := or_self_iff.mp hw
    exact ⟨hw', fun secret hsecret => nomatch hsecret⟩

theorem storeMachine_seal {answer : Except SecretStoreError Unit}
    (h : storeMachine w (.sealSecret id plaintext) answer w') :
    (w' = w ∨ w' = { w with secrets := (w.secrets.seal id plaintext).2 }) ∧
      ∀ u, answer = .ok u → w'.secrets.open id = .ok plaintext := by
  rcases h with h | ⟨message, rfl, hw⟩
  · obtain ⟨rfl, rfl⟩ := Prod.mk.inj h
    exact ⟨.inr rfl, fun u hu => SecretStore.open_of_seal hu⟩
  · exact ⟨hw, fun u hu => nomatch hu⟩

theorem storeMachine_scan {start : Bytes} {answer : Except StoreError (List StoredEntry)}
    (h : storeMachine w (.scanPrefix scope start) answer w') :
    w' = w ∧ ∀ entries, answer = .ok entries → entries = w.state.scanPrefix scope start := by
  rcases h with h | ⟨message, rfl, hw⟩
  · obtain ⟨rfl, rfl⟩ := Prod.mk.inj h
    exact ⟨rfl, fun entries hentries => (Except.ok.inj hentries).symm⟩
  · have hw' : w' = w := or_self_iff.mp hw
    exact ⟨hw', fun entries hentries => nomatch hentries⟩

theorem Safe.try_andThen {r : StoreRequest} {f : r.Answer → StoreTask ε β}
    (h : ∀ w₁, C.Le w w₁ → C.Inv w₁ → ∀ answer w₂, storeMachine w₁ r answer w₂ →
      G w₁ w₂ ∧ Safe storeMachine C G (f answer) (OnOk R) w₂) :
    Safe storeMachine C G (Task.request r Except.ok >>= f : StoreTask ε β) (OnOk R) w := by
  refine Safe.request_andThen ?_
  intro w₁ hle hinv answer w₂ hstep
  obtain ⟨hG, hf⟩ := h w₁ hle hinv answer w₂ hstep
  refine ⟨hG, ?_⟩
  intro a ha
  obtain rfl := Except.ok.inj ha
  exact hf

theorem Safe.tryOpenSecret_andThen (hstay : ∀ w, G w w)
    {f : Except SecretStoreError Bytes → StoreTask ε β}
    (h : ∀ w₁, C.Le w w₁ → C.Inv w₁ → ∀ answer,
      (∀ secret, answer = .ok secret → w₁.secrets.open id = .ok secret) →
      Safe storeMachine C G (f answer) (OnOk R) w₁) :
    Safe storeMachine C G (tryOpenSecret id >>= f : StoreTask ε β) (OnOk R) w := by
  refine Safe.try_andThen ?_
  intro w₁ hle hinv answer w₂ hstep
  obtain ⟨rfl, hanswer⟩ := storeMachine_open hstep
  exact ⟨hstay _, h _ hle hinv answer hanswer⟩

theorem Safe.trySealSecret_andThen (hstay : ∀ w, G w w)
    {f : Except SecretStoreError Unit → StoreTask ε β}
    (hseal : ∀ w₁, C.Inv w₁ → G w₁ { w₁ with secrets := (w₁.secrets.seal id plaintext).2 })
    (h : ∀ w₁, C.Le w w₁ → C.Inv w₁ → ∀ answer w₂, G w₁ w₂ →
      (∀ u, answer = .ok u → w₂.secrets.open id = .ok plaintext) →
      Safe storeMachine C G (f answer) (OnOk R) w₂) :
    Safe storeMachine C G (trySealSecret id plaintext >>= f : StoreTask ε β) (OnOk R) w := by
  refine Safe.try_andThen ?_
  intro w₁ hle hinv answer w₂ hstep
  obtain ⟨hw, hanswer⟩ := storeMachine_seal hstep
  have hG : G w₁ w₂ := by
    rcases hw with rfl | rfl
    · exact hstay _
    · exact hseal w₁ hinv
  exact ⟨hG, h w₁ hle hinv answer w₂ hG hanswer⟩

theorem Safe.tryCommit_andThen (hstay : ∀ w, G w w) {f : Except StoreError UInt64 → StoreTask ε β}
    (hcommit : ∀ w₁, C.Le w w₁ → C.Inv w₁ → ∀ version w₂,
      w₁.state.commitBatch batch = .ok (version, w₂.state) → w₂.secrets = w₁.secrets →
      G w₁ w₂ ∧ ∀ answer, Safe storeMachine C G (f answer) (OnOk R) w₂)
    (herror : ∀ w₁, C.Le w w₁ → C.Inv w₁ → ∀ e,
      Safe storeMachine C G (f (.error e)) (OnOk R) w₁) :
    Safe storeMachine C G (tryCommit batch >>= f : StoreTask ε β) (OnOk R) w := by
  refine Safe.try_andThen ?_
  intro w₁ hle hinv answer w₂ hstep
  rcases storeMachine_commit hstep with ⟨rfl, hanswer⟩ | ⟨version, hbatch, hsecrets⟩
  · refine ⟨hstay _, ?_⟩
    cases answer with
    | error e => exact herror _ hle hinv e
    | ok version => exact absurd rfl (hanswer version)
  · obtain ⟨hG, hf⟩ := hcommit w₁ hle hinv version w₂ hbatch hsecrets
    exact ⟨hG, hf answer⟩

theorem Safe.tryDeleteSecret_andThen (hstay : ∀ w, G w w)
    {f : Except SecretStoreError Unit → StoreTask ε β}
    (hdelete : ∀ w₁, C.Le w w₁ → C.Inv w₁ → G w₁ { w₁ with secrets := w₁.secrets.delete id })
    (h : ∀ w₁, C.Le w w₁ → C.Inv w₁ → ∀ answer w₂, G w₁ w₂ → w₂.state = w₁.state →
      Safe storeMachine C G (f answer) (OnOk R) w₂) :
    Safe storeMachine C G (tryDeleteSecret id >>= f : StoreTask ε β) (OnOk R) w := by
  refine Safe.try_andThen ?_
  intro w₁ hle hinv answer w₂ hstep
  have hw : w₂ = w₁ ∨ w₂ = { w₁ with secrets := w₁.secrets.delete id } := by
    rcases hstep with hserve | ⟨message, -, hw⟩
    · exact .inr (Prod.mk.inj hserve).2
    · exact hw
  have hG : G w₁ w₂ := by
    rcases hw with rfl | rfl
    · exact hstay _
    · exact hdelete w₁ hle hinv
  have hstate : w₂.state = w₁.state := by
    rcases hw with rfl | rfl
    · rfl
    · rfl
  exact ⟨hG, h w₁ hle hinv answer w₂ hG hstate⟩

/-! ## Programs that only look -/

def StoreRequest.Quiet : StoreRequest → Prop
  | .read _ _ => True
  | .scanPrefix _ _ => True
  | .openSecret _ => True
  | _ => False

theorem Safe.of_quiet (hstay : ∀ w, G w w) {p : Prog storeInterface α}
    (h : p.Only StoreRequest.Quiet) {Q : α → Stores → Prop} (hQ : ∀ a w, Q a w) :
    Safe storeMachine C G p Q w := by
  induction p generalizing w with
  | ret a => exact hQ a w
  | call r k ih =>
    intro w₁ _ _ answer w₂ hstep
    have hw : w₂ = w₁ := by
      cases r with
      | read scope key => exact (storeMachine_read hstep).1
      | scanPrefix scope start => exact (storeMachine_scan hstep).1
      | openSecret id => exact (storeMachine_open hstep).1
      | commit batch => exact False.elim h.1
      | sealSecret id plaintext => exact False.elim h.1
      | deleteSecret id => exact False.elim h.1
    rw [hw]
    exact ⟨hstay w₁, ih answer (h.2 answer)⟩

theorem storeMachine_serve (w : Stores) (r : StoreRequest) :
    storeMachine w r (serve w r).1 (serve w r).2 := .inl rfl

end Weaver
