import Weaver.Store.Requests

/-!
# Backend failures before a commit

A run of one store program on stores whose backend may fail, as long as no batch has been committed:
a request is then answered with a backend error, and has no effect. Once a batch is committed the
stores answer every request.

A program is `Careful` when a failed request ends it at once, with a result that says so, and when it
changes the stores by commits only. A careful program either runs as if nothing had failed, or ends
with such a result and has changed nothing.
-/

namespace Weaver

open Checked Wire Versioned Program

variable {ε α β : Type}

def StoreRequest.TakesEffect (w : Stores) : StoreRequest → Prop
  | .commit batch => ∃ result, w.state.commitBatch batch = .ok result
  | _ => False

/-- The runs of a program whose requests may fail, without an effect, until it has committed a
batch. -/
inductive FaultyRun : Prog storeInterface α → Stores → α → Stores → Prop
  | ret (a : α) (w : Stores) : FaultyRun (.ret a) w a w
  | failed {r : StoreRequest} {k : r.Answer → Prog storeInterface α} {w w' : Stores} {a : α}
      (message : String) : FaultyRun (k (backendFailure message r)) w a w' →
      FaultyRun (.call r k) w a w'
  | answered {r : StoreRequest} {k : r.Answer → Prog storeInterface α} {w w' : Stores} {a : α} :
      ¬ r.TakesEffect w → FaultyRun (k (serve w r).1) (serve w r).2 a w' →
      FaultyRun (.call r k) w a w'
  | committed {r : StoreRequest} {k : r.Answer → Prog storeInterface α} {w w' : Stores} {a : α} :
      r.TakesEffect w → (Prog.call r k).run serve w = (a, w') → FaultyRun (.call r k) w a w'

variable {p : Prog storeInterface α} {w : Stores}

theorem FaultyRun.of_run {w' : Stores} {a : α} (h : p.run serve w = (a, w')) :
    FaultyRun p w a w' := by
  induction p generalizing w with
  | ret b =>
    obtain ⟨rfl, rfl⟩ := Prod.mk.inj h
    exact .ret b w
  | call r k ih =>
    by_cases heffect : r.TakesEffect w
    · exact .committed heffect h
    · exact .answered heffect (ih (serve w r).1 h)

def StoreRequest.Seals : StoreRequest → Prop
  | .sealSecret _ _ => True
  | .deleteSecret _ => True
  | _ => False

def StoreRequest.Committed : (r : StoreRequest) → r.Answer → Prop
  | .commit _, answer => ∃ version, answer = .ok version
  | _, _ => False

/-- The program changes the stores by commits only, and until it has committed a batch it ends at a
failed request with a result in `Failed` and returns only results in `Q`. -/
def Careful (Failed Q : α → Prop) : Prog storeInterface α → Prop
  | .ret a => Q a
  | .call r k => ¬ r.Seals ∧
      (∀ message, ∃ a, k (backendFailure message r) = .ret a ∧ Failed a) ∧
      ∀ answer, ¬ r.Committed answer → Careful Failed Q (k answer)

theorem serve_of_not_takesEffect {r : StoreRequest} (hr : ¬ r.Seals) (h : ¬ r.TakesEffect w) :
    (serve w r).2 = w ∧ ¬ r.Committed (serve w r).1 := by
  cases r with
  | read scope key => exact ⟨rfl, id⟩
  | scanPrefix _ _ => exact ⟨rfl, id⟩
  | openSecret _ => exact ⟨rfl, id⟩
  | sealSecret _ _ => exact absurd trivial hr
  | deleteSecret _ => exact absurd trivial hr
  | commit batch =>
    have hserve : serve w (.commit batch) = w.commit batch := rfl
    cases hc : w.state.commitBatch batch with
    | ok result => exact absurd ⟨result, hc⟩ h
    | error e =>
      rw [hserve, Stores.commit_of_error hc]
      refine ⟨rfl, ?_⟩
      rintro ⟨version, hok⟩
      cases hok

theorem Careful.run {Failed Q : α → Prop} (h : Careful Failed Q p) {w' : Stores} {a : α}
    (hrun : FaultyRun p w a w') :
    p.run serve w = (a, w') ∨ Failed a ∧ w' = w := by
  induction hrun with
  | ret a w => exact .inl rfl
  | @failed r k w w' a message hrest ih =>
    obtain ⟨b, hret, hfailed⟩ := h.2.1 message
    rw [hret] at hrest
    cases hrest
    exact .inr ⟨hfailed, rfl⟩
  | @answered r k w w' a heffect hrest ih =>
    obtain ⟨hw, hanswer⟩ := serve_of_not_takesEffect h.1 heffect
    rcases ih (h.2.2 _ hanswer) with hrun | ⟨hfailed, hw'⟩
    · exact .inl hrun
    · exact .inr ⟨hfailed, hw'.trans hw⟩
  | committed _ hrun => exact .inl hrun

/-! ## Careful programs -/

section Rules

variable {Failed : α → Prop} {Q : α → Prop} {Failed' Q' : β → Prop}

theorem Careful.bind {p : Prog storeInterface α} {f : α → Prog storeInterface β}
    (h : Careful Failed Q p) (hfailed : ∀ a, Failed a → ∃ b, f a = .ret b ∧ Failed' b)
    (hf : ∀ a, Q a → Careful Failed' Q' (f a)) : Careful Failed' Q' (p.bind f) := by
  induction p with
  | ret a => exact hf a h
  | call r k ih =>
    refine ⟨h.1, ?_, ?_⟩
    · intro message
      obtain ⟨a, hret, ha⟩ := h.2.1 message
      obtain ⟨b, hb, hb'⟩ := hfailed a ha
      have hcall : (k (backendFailure message r)).bind f = .ret b := by
        rw [hret]
        exact hb
      exact ⟨b, hcall, hb'⟩
    · intro answer hanswer
      exact ih answer (h.2.2 answer hanswer)

def IsError (r : Except ε α) : Prop := ∃ e, r = .error e

variable {Q : Except ε α → Prop}

variable {f : β → StoreTask ε α}

theorem Careful.lift_bind {x : Except ε β} (herror : ∀ e, Q (.error e))
    (hf : ∀ b, x = .ok b → Careful IsError Q (f b)) :
    Careful IsError Q (Task.lift x >>= f : StoreTask ε α) := by
  cases x with
  | error e => exact herror e
  | ok b => exact hf b rfl

theorem Careful.request_bind {r : StoreRequest} {g : r.Answer → Except ε β} (hr : ¬ r.Seals)
    (herror : ∀ e, Q (.error e)) (hfailed : ∀ message, ∃ e, g (backendFailure message r) = .error e)
    (hf : ∀ answer b, ¬ r.Committed answer → g answer = .ok b → Careful IsError Q (f b)) :
    Careful IsError Q (Task.request r g >>= f : StoreTask ε α) := by
  have hnext : ∀ result, (∀ b, result = .ok b → Careful IsError Q (f b)) →
      Careful IsError Q (Task.lift result >>= f : StoreTask ε α) := fun _ => lift_bind herror
  refine And.intro hr (And.intro ?_ ?_)
  · intro message
    obtain ⟨e, he⟩ := hfailed message
    have hret : (Task.lift (g (backendFailure message r)) >>= f : StoreTask ε α) =
        .ret (.error e) := by
      rw [he]
      rfl
    exact ⟨.error e, hret, e, rfl⟩
  · intro answer hanswer
    exact hnext (g answer) (hf answer · hanswer)

end Rules

end Weaver
