import Weaver.Lib.Crash

/-!
# Programs that do what others do

A program over one interface that does the work of a program over another. Where the requests of the
second are carried out by programs over the first, that is a translation (`Prog.via`), and its runs
are those of the program that it translates (`Prog.run_via`). Where there is no such translation, or
requests may fail, `Refines` relates the two by their results: the first returns only what the second
returns, in related states, and it does return when the second does and nothing goes wrong.
-/

namespace Program

variable {I J : Interface} {α α' β β' ε σ τ : Type}

/-! ## Translations -/

/-- The program whose requests are carried out by other programs. -/
def Prog.via (carry : (r : I.Request) → Prog J (I.Answer r)) : Prog I α → Prog J α
  | .ret a => .ret a
  | .call r k => (carry r).bind fun ans => (k ans).via carry

theorem Prog.run_via {carry : (r : I.Request) → Prog J (I.Answer r)} {serve : Server I σ}
    {serve' : Server J τ} {K : I.Request → Prop} {R : τ → σ → Prop}
    (hcarry : ∀ r, K r → ∀ v w, R v w → ((carry r).run serve' v).1 = (serve w r).1 ∧
      R ((carry r).run serve' v).2 (serve w r).2)
    {p : Prog I α} (hp : p.Only K) {v : τ} {w : σ} (h : R v w) :
    ((p.via carry).run serve' v).1 = (p.run serve w).1 ∧
      R ((p.via carry).run serve' v).2 (p.run serve w).2 := by
  induction p generalizing v w with
  | ret a => exact ⟨rfl, h⟩
  | call r k ih =>
    obtain ⟨hanswer, hrelated⟩ := hcarry r hp.1 v w h
    rw [Prog.via, Prog.run_bind, hanswer, Prog.run_call]
    exact ih _ (hp.2 _) hrelated

/-! ## Refinement -/

/-- The first program returns only what the second returns, in states that `Q` relates, and it
returns when the second does and nothing goes wrong. -/
def Refines (M : Machine J τ) (Calm : Prop) (serve : Server I σ) (x : Task J ε α)
    (y : Task I ε β) (Q : α → β → τ → σ → Prop) (v : τ) (w : σ) : Prop :=
  Yields M (Calm ∧ ∃ b w', y.run serve w = (.ok b, w')) x
    (fun a v' => ∃ b w', y.run serve w = (.ok b, w') ∧ Q a b v' w') v

section Refines

variable {M : Machine J τ} {Calm : Prop} {serve : Server I σ} {Q : α → β → τ → σ → Prop}
  {Q' : α' → β' → τ → σ → Prop} {v : τ} {w : σ}

theorem Refines.of_pure {a : α} {b : β} (h : Q a b v w) :
    Refines M Calm serve (pure a : Task J ε α) (pure b : Task I ε β) Q v w :=
  ⟨b, w, rfl, h⟩

theorem Refines.andThen {x : Task J ε α} {y : Task I ε β} {f : α → Task J ε α'}
    {g : β → Task I ε β'} (h : Refines M Calm serve x y Q v w)
    (hf : ∀ a b v' w', Q a b v' w' → Refines M Calm serve (f a) (g b) Q' v' w') :
    Refines M Calm serve (x >>= f : Task J ε α') (y >>= g : Task I ε β') Q' v w := by
  refine Yields.andThen (h.weaken ?_ fun _ _ => id) ?_
  · rintro ⟨hc, b', w', hrun⟩
    obtain ⟨b, w₁, hy, -⟩ := Task.run_bind_eq_ok.mp hrun
    exact ⟨hc, b, w₁, hy⟩
  · rintro a v' ⟨b, w₁, hy, hQ⟩
    have hbind : ∀ b' w', (y >>= g : Task I ε β').run serve w = (.ok b', w') ↔
        (g b).run serve w₁ = (.ok b', w') := by
      intro b' w'
      rw [Task.run_bind, hy]
    refine (hf a b v' w₁ hQ).weaken ?_ ?_
    · rintro ⟨hc, b', w', hrun⟩
      exact ⟨hc, b', w', (hbind b' w').mp hrun⟩
    · rintro a' v'' ⟨b', w', hrun, hQ'⟩
      exact ⟨b', w', (hbind b' w').mpr hrun, hQ'⟩

theorem Refines.lift_andThen {γ : Type} {x : Except ε γ} {f : γ → Task J ε α'}
    {g : γ → Task I ε β'}
    (hf : ∀ a, x = .ok a → Refines M Calm serve (f a) (g a) Q' v w) :
    Refines M Calm serve (Task.lift x >>= f : Task J ε α') (Task.lift x >>= g : Task I ε β') Q'
      v w := by
  cases x with
  | ok a => exact hf a rfl
  | error e =>
    rintro ⟨-, b', w', hrun⟩
    cases (Prod.mk.inj hrun).1

theorem Refines.silent {P : α → τ → Prop} {x : Task J ε α} {f : α → Task J ε α'}
    {y : Task I ε β'} (h : Yields M Calm x P v)
    (hf : ∀ a v', P a v' → Refines M Calm serve (f a) y Q' v' w) :
    Refines M Calm serve (x >>= f : Task J ε α') y Q' v w :=
  Yields.andThen (h.weaken And.left fun _ _ => id) hf

end Refines

end Program
