import Weaver.Lib.Checked

/-!
# Programs against an interface

A `Prog` is a program that talks to its surroundings through requests: it has returned, or it has
made a request and waits for the answer. Nothing is said here about who answers. `run` is the
sequential reading, with a server that answers every request at once; the interleaved reading is in
`Weaver.Lib.Pool`.

`Task` is a program whose result may be an error. It is the type of asynchronous fallible code: a
request is a point where other code may run, and everything between two requests is one step.
-/

namespace Program

open Checked

/-- An interface: the requests that a program may make, and the type of each request's answer. -/
structure Interface where
  Request : Type
  Answer : Request → Type

/-- A program that returns, or makes a request and goes on with its answer. -/
inductive Prog (I : Interface) (α : Type) : Type
  | ret (a : α) : Prog I α
  | call (r : I.Request) (k : I.Answer r → Prog I α) : Prog I α

variable {I : Interface} {α β γ ε ε' σ : Type}

def Prog.bind : Prog I α → (α → Prog I β) → Prog I β
  | .ret a, f => f a
  | .call r k, f => .call r fun ans => (k ans).bind f

/-! ## Fallible programs -/

/-- A program whose result is a value or an error. -/
def Task (I : Interface) (ε α : Type) : Type := Prog I (Except ε α)

namespace Task

def lift (x : Except ε α) : Task I ε α := Prog.ret x

/-- The value, when the computation has not failed, is passed on. -/
def bind (x : Task I ε α) (f : α → Task I ε β) : Task I ε β :=
  Prog.bind x fun
    | .ok a => f a
    | .error e => .ret (.error e)

instance : Monad (Task I ε) where
  pure a := lift (.ok a)
  bind := bind

/-- A request, whose answer is turned into a result. -/
def request (r : I.Request) (f : I.Answer r → Except ε α) : Task I ε α :=
  .call r fun ans => .ret (f ans)

end Task

/-! ## Sequential runs -/

/-- How a server answers a request in a state, and the state that it leaves. -/
abbrev Server (I : Interface) (σ : Type) := σ → (r : I.Request) → I.Answer r × σ

/-- The run of a program whose requests are answered at once. -/
def Prog.run (serve : Server I σ) : Prog I α → σ → α × σ
  | .ret a, w => (a, w)
  | .call r k, w => (k (serve w r).1).run serve (serve w r).2

variable {serve : Server I σ}

@[simp]
theorem Prog.run_ret (a : α) (w : σ) : (Prog.ret a : Prog I α).run serve w = (a, w) := rfl

theorem Prog.run_call (r : I.Request) (k : I.Answer r → Prog I α) (w : σ) :
    (Prog.call r k).run serve w = (k (serve w r).1).run serve (serve w r).2 := rfl

theorem Prog.run_bind (p : Prog I α) (f : α → Prog I β) (w : σ) :
    (p.bind f).run serve w = (f (p.run serve w).1).run serve (p.run serve w).2 := by
  induction p generalizing w with
  | ret a => rfl
  | call r k ih => exact ih (serve w r).1 (serve w r).2

/-- Whatever the answers are, the program makes only requests of the kind. -/
def Prog.Only (K : I.Request → Prop) : Prog I α → Prop
  | .ret _ => True
  | .call r k => K r ∧ ∀ ans, (k ans).Only K

theorem Prog.Only.bind {K : I.Request → Prop} {p : Prog I α} {f : α → Prog I β} (h : p.Only K)
    (hf : ∀ a, (f a).Only K) : (p.bind f).Only K := by
  induction p with
  | ret a => exact hf a
  | call r k ih => exact ⟨h.1, fun ans => ih ans (h.2 ans)⟩

variable {x : Task I ε α} {f : α → Task I ε β}

theorem Prog.Only.andThen {K : I.Request → Prop} (h : Prog.Only K x) (hf : ∀ a, Prog.Only K (f a)) :
    Prog.Only K (x >>= f : Task I ε β) := by
  refine h.bind ?_
  intro result
  cases result with
  | error e => trivial
  | ok a => exact hf a

theorem Prog.Only.lift_andThen {K : I.Request → Prop} {x : Except ε α}
    (hf : ∀ a, x = .ok a → Prog.Only K (f a)) : Prog.Only K (Task.lift x >>= f : Task I ε β) := by
  cases x with
  | error e => trivial
  | ok a => exact hf a rfl

theorem Prog.Only.run_rel {K : I.Request → Prop} {R : σ → σ → Prop} (hrefl : ∀ w, R w w)
    (htrans : ∀ w₁ w₂ w₃, R w₁ w₂ → R w₂ w₃ → R w₁ w₃) (hstep : ∀ w r, K r → R w (serve w r).2)
    {p : Prog I α} (h : p.Only K) (w : σ) : R w (p.run serve w).2 := by
  induction p generalizing w with
  | ret a => exact hrefl w
  | call r k ih =>
    exact htrans _ _ _ (hstep w r h.1) (ih (serve w r).1 (h.2 (serve w r).1) (serve w r).2)

theorem Prog.only_true (p : Prog I α) : p.Only fun _ => True := by
  induction p with
  | ret a => trivial
  | call r k ih => exact ⟨trivial, ih⟩

def Task.run (serve : Server I σ) (x : Task I ε α) (w : σ) : Except ε α × σ := Prog.run serve x w

theorem Task.run_then (x : Task I ε α) (f : Except ε α → Prog I β) (w : σ) :
    Prog.run serve (Prog.bind x f) w =
      Prog.run serve (f (x.run serve w).1) (x.run serve w).2 :=
  Prog.run_bind x f w

@[simp]
theorem Task.run_lift (x : Except ε α) (w : σ) : (lift x : Task I ε α).run serve w = (x, w) := rfl

@[simp]
theorem Task.run_pure (a : α) (w : σ) : (pure a : Task I ε α).run serve w = (.ok a, w) := rfl

@[simp]
theorem Task.run_request (r : I.Request) (f : I.Answer r → Except ε α) (w : σ) :
    (request r f : Task I ε α).run serve w = (f (serve w r).1, (serve w r).2) := rfl

theorem Task.run_bind (x : Task I ε α) (f : α → Task I ε β) (w : σ) :
    (x >>= f).run serve w =
      match x.run serve w with
      | (.ok a, w') => (f a).run serve w'
      | (.error e, w') => (.error e, w') := by
  refine (Prog.run_bind x _ w).trans ?_
  unfold Task.run
  rcases Prog.run serve x w with ⟨_ | a, w'⟩
  · rfl
  · rfl

variable {w w' : σ}

theorem Task.run_bind_eq_ok {b : β} :
    (x >>= f).run serve w = (.ok b, w') ↔
      ∃ a w₁, x.run serve w = (.ok a, w₁) ∧ (f a).run serve w₁ = (.ok b, w') := by
  rw [Task.run_bind]
  rcases x.run serve w with ⟨_ | a, w₁⟩ <;> simp

theorem Task.run_lift_bind_eq_ok {x : Except ε α} {b : β} :
    (Task.lift x >>= f).run serve w = (.ok b, w') ↔
      ∃ a, x = .ok a ∧ (f a).run serve w = (.ok b, w') := by
  rw [Task.run_bind, Task.run_lift]
  cases x <;> simp

@[simp]
theorem Task.run_lift_ok_bind (a : α) (f : α → Task I ε β) (w : σ) :
    (Task.lift (.ok a) >>= f).run serve w = (f a).run serve w := rfl

variable {r : Except ε β}

theorem Task.run_bind_cases (h : (x >>= f).run serve w = (r, w')) :
    (∃ e, x.run serve w = (.error e, w') ∧ r = .error e) ∨
      ∃ a w₁, x.run serve w = (.ok a, w₁) ∧ (f a).run serve w₁ = (r, w') := by
  rw [Task.run_bind] at h
  rcases hx : x.run serve w with ⟨_ | a, w₁⟩
  · rw [hx] at h
    obtain ⟨rfl, rfl⟩ := Prod.mk.inj h
    exact .inl ⟨_, rfl, rfl⟩
  · rw [hx] at h
    exact .inr ⟨a, w₁, rfl, h⟩

theorem Task.run_lift_cases {x : Except ε α} (h : (Task.lift x >>= f).run serve w = (r, w')) :
    (∃ e, r = .error e ∧ w' = w) ∨ ∃ a, x = .ok a ∧ (f a).run serve w = (r, w') := by
  rcases Task.run_bind_cases h with ⟨e, hx, hr⟩ | ⟨a, w₁, hx, hf⟩
  · rw [Task.run_lift] at hx
    exact .inl ⟨e, hr, (Prod.mk.inj hx).2.symm⟩
  · rw [Task.run_lift] at hx
    obtain ⟨ha, rfl⟩ := Prod.mk.inj hx
    exact .inr ⟨a, ha, hf⟩

theorem Task.run_quiet_cases (hx : (x.run serve w).2 = w) (h : (x >>= f).run serve w = (r, w')) :
    (∃ e, r = .error e ∧ w' = w) ∨ ∃ a, (f a).run serve w = (r, w') := by
  rcases Task.run_bind_cases h with ⟨e, hrun, hr⟩ | ⟨a, w₁, hrun, hf⟩
  · rw [hrun] at hx
    exact .inl ⟨e, hr, hx⟩
  · rw [hrun] at hx
    obtain rfl : w₁ = w := hx
    exact .inr ⟨a, hf⟩

end Program
