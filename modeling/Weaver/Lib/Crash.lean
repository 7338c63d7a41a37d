import Weaver.Lib.Pool

/-!
# Programs that fail and are interrupted

A program runs alone, on a machine whose requests may fail, and it may be stopped for good after any
of its requests. `Prog.Exec` are its runs up to any point. `Always` is the triple for them: a
condition that holds of every state of such a run, and one that holds of the result when the program
has returned. It is proved along the program, with one rule for each way to build one; a program
whose requests all leave an assertion true keeps it (`Always.only`).

`Yields` is the triple for the result alone. It says two things of a fallible program at once: what
a value that it returns comes with, and that it does return a value when nothing goes wrong.
-/

namespace Program

variable {I : Interface} {α β ε ε' σ : Type}

/-- The runs of a program up to any point: what is left of it, and the state. -/
inductive Prog.Exec (M : Machine I σ) : Prog I α → σ → Prog I α → σ → Prop
  | stop (p : Prog I α) (w : σ) : Exec M p w p w
  | step {r : I.Request} {k : I.Answer r → Prog I α} {w w' w'' : σ} {ans : I.Answer r}
      {q : Prog I α} : M w r ans w' → Exec M (k ans) w' q w'' → Exec M (.call r k) w q w''

/-- After every request `P` holds, and the program returns with `Q`. -/
def Always (M : Machine I σ) (P : σ → Prop) : Prog I α → (α → σ → Prop) → σ → Prop
  | .ret a, Q, w => Q a w
  | .call r k, Q, w => ∀ ans w', M w r ans w' → P w' ∧ Always M P (k ans) Q w'

/-- The machine that answers as the server does, or fails at a request that may fail. -/
def Server.failing (serve : Server I σ) (Fails : I.Request → Prop)
    (Broken : σ → (r : I.Request) → I.Answer r → σ → Prop) : Machine I σ := fun w r ans w' =>
  serve w r = (ans, w') ∨ Fails r ∧ Broken w r ans w'

/-- What a fallible program ends with: `Q` of a value, and `E` of an error. -/
def Ends (E : ε → σ → Prop) (Q : α → σ → Prop) : Except ε α → σ → Prop
  | .error e, w => E e w
  | .ok a, w => Q a w

/-- The program returns values with `Q` only, and it fails only where something goes wrong. -/
def Yields (M : Machine I σ) (Calm : Prop) (x : Task I ε α) (Q : α → σ → Prop) (w : σ) : Prop :=
  Always M (fun _ => True) x (Ends (fun _ _ => ¬ Calm) Q) w

/-- The program, and then a request whose answer is ignored. -/
def Task.thenAlways (x : Task I ε α) (r : I.Request) : Task I ε α :=
  Prog.bind x fun result => .call r fun _ => .ret result

/-- The program, and then, when it has failed, a request whose answer is ignored. -/
def Task.onError (x : Task I ε α) (r : I.Request) : Task I ε α :=
  Prog.bind x fun
    | .ok a => .ret (.ok a)
    | .error e => .call r fun _ => .ret (.error e)

/-- The program, with its errors turned into others. -/
def Task.mapError (f : ε → ε') (x : Task I ε α) : Task I ε' α :=
  Prog.bind x fun result => .ret (result.mapError f)

theorem Task.run_mapError {serve : Server I σ} (f : ε → ε') (x : Task I ε α) (w : σ) :
    (x.mapError f).run serve w = ((x.run serve w).1.mapError f, (x.run serve w).2) :=
  Prog.run_bind x _ w

theorem Prog.Only.mono {K K' : I.Request → Prop} {p : Prog I α} (h : p.Only K)
    (hK : ∀ r, K r → K' r) : p.Only K' := by
  induction p with
  | ret a => trivial
  | call r k ih => exact ⟨hK r h.1, fun ans => ih ans (h.2 ans)⟩

theorem Task.mapError_only {K : I.Request → Prop} {f : ε → ε'} {x : Task I ε α}
    (h : Prog.Only K x) : Prog.Only K (x.mapError f) :=
  h.bind fun _ => trivial

section Rules

variable {M : Machine I σ} {P P' : σ → Prop} {p : Prog I α} {Q Q' : α → σ → Prop} {w : σ}

theorem Always.exec (h : Always M P p Q w) (hw : P w) {q : Prog I α} {w' : σ}
    (hexec : p.Exec M w q w') : P w' ∧ Always M P q Q w' := by
  induction hexec with
  | stop p w => exact ⟨hw, h⟩
  | step hstep _ ih =>
    obtain ⟨hP, hrest⟩ := h _ _ hstep
    exact ih hrest hP

variable {serve : Server I σ}

theorem Always.run (hserve : ∀ w r, M w r (serve w r).1 (serve w r).2) (h : Always M P p Q w) :
    Q (p.run serve w).1 (p.run serve w).2 := by
  induction p generalizing w with
  | ret a => exact h
  | call r k ih => exact ih _ (h _ _ (hserve w r)).2

theorem Prog.Exec.of_run (hserve : ∀ w r, M w r (serve w r).1 (serve w r).2) {a : α} {w' : σ}
    (h : p.run serve w = (a, w')) : p.Exec M w (.ret a) w' := by
  induction p generalizing w with
  | ret b =>
    obtain ⟨rfl, rfl⟩ := Prod.mk.inj h
    exact .stop _ _
  | call r k ih => exact .step (hserve w r) (ih _ h)

theorem Always.weaken (h : Always M P p Q w) (hP : ∀ w, P w → P' w)
    (hQ : ∀ a w, Q a w → Q' a w) : Always M P' p Q' w := by
  induction p generalizing w with
  | ret a => exact hQ a w h
  | call r k ih =>
    intro ans w' hstep
    obtain ⟨hw', hrest⟩ := h ans w' hstep
    exact ⟨hP w' hw', ih ans hrest⟩

theorem Always.and (h : Always M P p Q w) (h' : Always M P' p Q' w) :
    Always M (fun w => P w ∧ P' w) p (fun a w => Q a w ∧ Q' a w) w := by
  induction p generalizing w with
  | ret a => exact ⟨h, h'⟩
  | call r k ih =>
    intro ans w' hstep
    obtain ⟨hw', hrest⟩ := h ans w' hstep
    obtain ⟨hw'', hrest'⟩ := h' ans w' hstep
    exact ⟨⟨hw', hw''⟩, ih ans hrest hrest'⟩

theorem Always.bind {f : α → Prog I β} {R : β → σ → Prop} (h : Always M P p Q w)
    (hf : ∀ a w', Q a w' → Always M P (f a) R w') : Always M P (p.bind f) R w := by
  induction p generalizing w with
  | ret a => exact hf a w h
  | call r k ih =>
    intro ans w' hstep
    obtain ⟨hw', hrest⟩ := h ans w' hstep
    exact ⟨hw', ih ans hrest⟩

theorem Always.only {K : I.Request → Prop} (hp : p.Only K)
    (hstep : ∀ r, K r → ∀ w ans w', M w r ans w' → P w → P w') (hw : P w) :
    Always M P p (fun _ => P) w := by
  induction p generalizing w with
  | ret a => exact hw
  | call r k ih =>
    intro ans w' hs
    have hw' := hstep r hp.1 w ans w' hs hw
    exact ⟨hw', ih ans (hp.2 ans) hw'⟩

variable {E : ε → σ → Prop}

variable {f : α → Task I ε β}

theorem Always.andThen {x : Task I ε α} {R : β → σ → Prop} (h : Always M P x (Ends E Q) w)
    (hf : ∀ a w', Q a w' → Always M P (f a) (Ends E R) w') :
    Always M P (x >>= f : Task I ε β) (Ends E R) w := by
  refine Always.bind h ?_
  intro r w' hr
  cases r with
  | error e => exact hr
  | ok a => exact hf a w' hr

theorem Always.lift_andThen {x : Except ε α} {R : β → σ → Prop} (herror : ∀ e, x = .error e → E e w)
    (hf : ∀ a, x = .ok a → Always M P (f a) (Ends E R) w) :
    Always M P (Task.lift x >>= f : Task I ε β) (Ends E R) w := by
  cases x with
  | error e => exact herror e rfl
  | ok a => exact hf a rfl

variable {r : I.Request}

variable {g : I.Answer r → Except ε α}

theorem Always.request (h : ∀ ans w', M w r ans w' → P w' ∧ Ends E Q (g ans) w') :
    Always M P (Task.request r g : Task I ε α) (Ends E Q) w := h

theorem Always.onError {x : Task I ε α} {E' : ε → σ → Prop} (h : Always M P x (Ends E Q) w)
    (hr : ∀ e w', E e w' → ∀ ans w'', M w' r ans w'' → P w'' ∧ E' e w'') :
    Always M P (x.onError r) (Ends E' Q) w := by
  refine Always.bind h ?_
  intro result w' hresult
  cases result with
  | ok a => exact hresult
  | error e => exact hr e w' hresult

end Rules

section Yields

variable {M : Machine I σ} {Calm Calm' : Prop} {Q Q' : α → σ → Prop} {R : β → σ → Prop} {w : σ}

theorem Yields.of_pure {a : α} (h : Q a w) : Yields M Calm (pure a : Task I ε α) Q w := h

variable {x : Task I ε α}

theorem Yields.weaken (h : Yields M Calm x Q w) (hcalm : Calm' → Calm)
    (hQ : ∀ a w, Q a w → Q' a w) : Yields M Calm' x Q' w := by
  refine Always.weaken h (fun _ _ => trivial) ?_
  intro result w' hresult
  cases result with
  | ok a => exact hQ a w' hresult
  | error e => exact fun hc => hresult (hcalm hc)

variable {f : α → Task I ε β}

theorem Yields.andThen (h : Yields M Calm x Q w) (hf : ∀ a w', Q a w' → Yields M Calm (f a) R w') :
    Yields M Calm (x >>= f : Task I ε β) R w :=
  Always.andThen h hf

theorem Yields.lift_andThen {x : Except ε α} (hx : Calm → ∃ a, x = .ok a)
    (hf : ∀ a, x = .ok a → Yields M Calm (f a) R w) :
    Yields M Calm (Task.lift x >>= f : Task I ε β) R w := by
  refine Always.lift_andThen ?_ hf
  intro e he hcalm
  obtain ⟨a, ha⟩ := hx hcalm
  exact absurd (he.symm.trans ha) (by simp)

theorem Yields.mapError {f : ε → ε'} (h : Yields M Calm x Q w) :
    Yields M Calm (x.mapError f) Q w := by
  refine Always.bind h ?_
  intro result w' hresult
  cases result with
  | ok a => exact hresult
  | error e => exact hresult

theorem Yields.keeping {P : σ → Prop} (h : Yields M Calm x Q w)
    (hkeep : Always M P x (fun _ => P) w) :
    Yields M Calm x (fun a w' => Q a w' ∧ P w') w := by
  refine (h.and hkeep).weaken (fun _ _ => trivial) ?_
  intro result w' hresult
  cases result with
  | ok a => exact hresult
  | error e => exact hresult.1

theorem Yields.thenAlways {r : I.Request} (h : Yields M Calm x Q w)
    (hr : ∀ a w', Q a w' → ∀ ans w'', M w' r ans w'' → Q' a w'') :
    Yields M Calm (x.thenAlways r) Q' w := by
  refine Always.bind h ?_
  intro result w' hresult ans w'' hstep
  refine ⟨trivial, ?_⟩
  cases result with
  | ok a => exact hr a w' hresult ans w'' hstep
  | error e => exact hresult

end Yields

end Program
