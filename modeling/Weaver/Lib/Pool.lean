import Mathlib.Logic.Relation
import Weaver.Lib.Program

/-!
# Interleaved processes on a shared state

Any number of processes call an interface on one shared state. A process runs one call at a time;
between two of its requests, any other process may act. A process that crashes is one that never
acts again, so no step is needed for it.

Safety is proved one process at a time. A `Contract` says what always holds of the shared state and
how it may change over time; `Safe` says that a program, whatever the others do under the contract,
makes only changes that its guarantee allows and returns what its postcondition says. `Verified`
collects what has to be shown of every call, and `Verified.good` draws the conclusion for every
reachable pool, by one induction over the steps.
-/

namespace Program

variable {I : Interface} {α β ε σ : Type}

/-! ## Machines and contracts -/

/-- The answers that a request may get in a state, each with the state that it leaves. -/
abbrev Machine (I : Interface) (σ : Type) := σ → (r : I.Request) → I.Answer r → σ → Prop

/-- What always holds of the shared state, and how it changes over time. -/
structure Contract (σ : Type) where
  Inv : σ → Prop
  Le : σ → σ → Prop
  refl : ∀ w, Le w w
  trans : ∀ {w₁ w₂ w₃}, Le w₁ w₂ → Le w₂ w₃ → Le w₁ w₃

/-- An assertion that stays true while the state changes under the contract. -/
def Contract.Stable (C : Contract σ) (P : σ → Prop) : Prop :=
  ∀ w w', C.Le w w' → C.Inv w' → P w → P w'

/-- A guarantee whose changes the contract allows. -/
def Contract.Allows (C : Contract σ) (G : σ → σ → Prop) : Prop :=
  ∀ w w', C.Inv w → G w w' → C.Inv w' ∧ C.Le w w'

/-- Whatever the others do before each request, the program changes the state only as `G` allows,
and returns with `Q`. -/
def Safe (M : Machine I σ) (C : Contract σ) (G : σ → σ → Prop) :
    Prog I α → (α → σ → Prop) → σ → Prop
  | .ret a, Q, w => Q a w
  | .call r k, Q, w => ∀ w₁, C.Le w w₁ → C.Inv w₁ → ∀ ans w₂, M w₁ r ans w₂ →
      G w₁ w₂ ∧ Safe M C G (k ans) Q w₂

/-- What holds when a fallible program has returned a value. -/
def OnOk (Q : α → σ → Prop) : Except ε α → σ → Prop := fun r w => ∀ a, r = .ok a → Q a w

theorem onOk_error {Q : α → σ → Prop} (e : ε) (w : σ) : OnOk Q (.error e) w := by
  intro a h
  cases h

section Rules

variable {M : Machine I σ} {C : Contract σ} {G : σ → σ → Prop}

variable {p : Prog I α}

theorem Safe.later {Q : α → σ → Prop} (hQ : ∀ a, C.Stable (Q a)) {w w' : σ} (h : Safe M C G p Q w)
    (hle : C.Le w w') (hinv : C.Inv w') : Safe M C G p Q w' := by
  cases p with
  | ret a => exact hQ a w w' hle hinv h
  | call r k =>
    intro w₁ hle₁ hinv₁ ans w₂ hstep
    exact h w₁ (C.trans hle hle₁) hinv₁ ans w₂ hstep

variable {w : σ}

theorem Safe.weaken {Q R : α → σ → Prop} (hallow : C.Allows G) (h : Safe M C G p Q w)
    (hinv : C.Inv w) (hQR : ∀ a w', C.Le w w' → C.Inv w' → Q a w' → R a w') : Safe M C G p R w := by
  induction p generalizing w with
  | ret a => exact hQR a w (C.refl w) hinv h
  | call r k ih =>
    intro w₁ hle₁ hinv₁ ans w₂ hstep
    obtain ⟨hG, hk⟩ := h w₁ hle₁ hinv₁ ans w₂ hstep
    obtain ⟨hinv₂, hle₂⟩ := hallow w₁ w₂ hinv₁ hG
    exact ⟨hG, ih ans hk hinv₂ fun a w' hle' => hQR a w' (C.trans (C.trans hle₁ hle₂) hle')⟩

theorem Safe.bind {f : α → Prog I β} {Q : α → σ → Prop} {R : β → σ → Prop} (hallow : C.Allows G)
    (hinv : C.Inv w) (h : Safe M C G p Q w)
    (hf : ∀ a w', C.Le w w' → C.Inv w' → Q a w' → Safe M C G (f a) R w') :
    Safe M C G (p.bind f) R w := by
  induction p generalizing w with
  | ret a => exact hf a w (C.refl w) hinv h
  | call r k ih =>
    intro w₁ hle₁ hinv₁ ans w₂ hstep
    obtain ⟨hG, hk⟩ := h w₁ hle₁ hinv₁ ans w₂ hstep
    obtain ⟨hinv₂, hle₂⟩ := hallow w₁ w₂ hinv₁ hG
    exact ⟨hG, ih ans hinv₂ hk fun a w' hle' => hf a w' (C.trans (C.trans hle₁ hle₂) hle')⟩

variable {f : α → Task I ε β}

theorem Safe.andThen {x : Task I ε α} {Q : α → σ → Prop} {R : β → σ → Prop} (hallow : C.Allows G)
    (hinv : C.Inv w) (h : Safe M C G x (OnOk Q) w)
    (hf : ∀ a w', C.Le w w' → C.Inv w' → Q a w' → Safe M C G (f a) (OnOk R) w') :
    Safe M C G (x >>= f : Task I ε β) (OnOk R) w := by
  refine Safe.bind hallow hinv h ?_
  intro r w' hle' hinv' hr
  cases r with
  | error e => exact onOk_error e w'
  | ok a => exact hf a w' hle' hinv' (hr a rfl)

theorem Safe.lift_andThen {x : Except ε α} {R : β → σ → Prop}
    (hf : ∀ a, x = .ok a → Safe M C G (f a) (OnOk R) w) :
    Safe M C G (Task.lift x >>= f : Task I ε β) (OnOk R) w := by
  cases x with
  | error e => exact onOk_error e w
  | ok a => exact hf a rfl

theorem Safe.lift {x : Except ε α} {R : α → σ → Prop} (h : ∀ a, x = .ok a → R a w) :
    Safe M C G (Task.lift x : Task I ε α) (OnOk R) w := h

theorem Safe.pure {a : α} {R : α → σ → Prop} (h : R a w) :
    Safe M C G (Pure.pure a : Task I ε α) (OnOk R) w :=
  fun _ heq => Except.ok.inj heq ▸ h

theorem Safe.request {r : I.Request} {g : I.Answer r → Except ε α} {R : α → σ → Prop}
    (h : ∀ w₁, C.Le w w₁ → C.Inv w₁ → ∀ ans w₂, M w₁ r ans w₂ → G w₁ w₂ ∧
      ∀ a, g ans = .ok a → R a w₂) :
    Safe M C G (Task.request r g : Task I ε α) (OnOk R) w := h

theorem Safe.request_andThen {r : I.Request} {g : I.Answer r → Except ε α} {R : β → σ → Prop}
    (h : ∀ w₁, C.Le w w₁ → C.Inv w₁ → ∀ ans w₂, M w₁ r ans w₂ → G w₁ w₂ ∧
      ∀ a, g ans = .ok a → Safe M C G (f a) (OnOk R) w₂) :
    Safe M C G (Task.request r g >>= f : Task I ε β) (OnOk R) w := by
  intro w₁ hle₁ hinv₁ ans w₂ hstep
  obtain ⟨hG, hf⟩ := h w₁ hle₁ hinv₁ ans w₂ hstep
  refine ⟨hG, ?_⟩
  change Safe M C G ((Prog.ret (g ans)).bind _) (OnOk R) w₂
  cases hg : g ans with
  | error e => exact onOk_error e w₂
  | ok a => exact hf a hg

variable {serve : Server I σ}

theorem Safe.run (hserve : ∀ w r, M w r (serve w r).1 (serve w r).2) (hallow : C.Allows G)
    {Q : α → σ → Prop} (h : Safe M C G p Q w) (hinv : C.Inv w) :
    Q (p.run serve w).1 (p.run serve w).2 ∧ C.Inv (p.run serve w).2 ∧
      C.Le w (p.run serve w).2 := by
  induction p generalizing w with
  | ret a => exact ⟨h, hinv, C.refl w⟩
  | call r k ih =>
    obtain ⟨hG, hk⟩ := h w (C.refl w) hinv _ _ (hserve w r)
    obtain ⟨hinv', hle⟩ := hallow _ _ hinv hG
    obtain ⟨hQ, hinv'', hle'⟩ := ih (serve w r).1 hk hinv'
    exact ⟨hQ, hinv'', C.trans hle hle'⟩

theorem Safe.run_steps (hserve : ∀ w r, M w r (serve w r).1 (serve w r).2) (hallow : C.Allows G)
    {Q : α → σ → Prop} (h : Safe M C G p Q w) (hinv : C.Inv w) :
    Relation.ReflTransGen G w (p.run serve w).2 := by
  induction p generalizing w with
  | ret a => exact .refl
  | call r k ih =>
    obtain ⟨hG, hk⟩ := h w (C.refl w) hinv _ _ (hserve w r)
    exact .head hG (ih (serve w r).1 hk (hallow _ _ hinv hG).1)

end Rules

/-! ## Processes and pools -/

/-- What the processes call: each call is a program that works on the caller's handle, and its
requests are answered by a machine. -/
structure Api (I : Interface) (σ : Type) where
  Handle : Type
  Call : Type
  Reply : Call → Type
  body : (c : Call) → Handle → Prog I (Reply c × Handle)
  machine : Call → Machine I σ

structure Event (A : Api I σ) where
  call : A.Call
  reply : A.Reply call

/-- A process keeps its handle between two calls, or is in the middle of a call. -/
inductive Process (A : Api I σ) where
  | idle (h : A.Handle)
  | busy (c : A.Call) (p : Prog I (A.Reply c × A.Handle))

/-- The shared state, the processes, and the calls that have returned so far. -/
structure Pool (A : Api I σ) where
  world : σ
  processes : List (Process A)
  log : List (Event A)

def Pool.initial (A : Api I σ) (w : σ) : Pool A := ⟨w, [], []⟩

/-- Which processes may appear and which calls may be made. -/
structure Rules (A : Api I σ) where
  Spawn : Pool A → A.Handle → Prop
  Start : Pool A → A.Handle → A.Call → Prop

variable {A : Api I σ} {R : Rules A}

inductive Step (R : Rules A) : Pool A → Pool A → Prop
  | spawn {P : Pool A} (h : A.Handle) :
      R.Spawn P h → Step R P { P with processes := P.processes ++ [.idle h] }
  | start {P : Pool A} (i : ℕ) (h : A.Handle) (c : A.Call) :
      P.processes[i]? = some (.idle h) → R.Start P h c →
      Step R P { P with processes := P.processes.set i (.busy c (A.body c h)) }
  | act {P : Pool A} (i : ℕ) (c : A.Call) (r : I.Request)
      (k : I.Answer r → Prog I (A.Reply c × A.Handle)) (ans : I.Answer r) (w : σ) :
      P.processes[i]? = some (.busy c (.call r k)) → A.machine c P.world r ans w →
      Step R P { P with world := w, processes := P.processes.set i (.busy c (k ans)) }
  | finish {P : Pool A} (i : ℕ) (c : A.Call) (reply : A.Reply c) (h : A.Handle) :
      P.processes[i]? = some (.busy c (.ret (reply, h))) →
      Step R P { P with processes := P.processes.set i (.idle h), log := P.log ++ [⟨c, reply⟩] }

abbrev Steps (R : Rules A) : Pool A → Pool A → Prop := Relation.ReflTransGen (Step R)

/-- A request of the call is answered, and nothing else happens. -/
def Acts (c : A.Call) (P P' : Pool A) : Prop :=
  ∃ (i : ℕ) (r : I.Request) (k : I.Answer r → Prog I (A.Reply c × A.Handle)) (ans : I.Answer r)
    (w : σ), P.processes[i]? = some (.busy c (.call r k)) ∧ A.machine c P.world r ans w ∧
      P' = { P with world := w, processes := P.processes.set i (.busy c (k ans)) }

/-- The pool may come about from the shared state `w`. -/
def Reachable (R : Rules A) (w : σ) (P : Pool A) : Prop := Steps R (Pool.initial A w) P

/-! ## One step of the processes -/

theorem process_of_set {l : List (Process A)} {i j : ℕ} {x y : Process A}
    (h : (l.set i x)[j]? = some y) : (j = i ∧ y = x) ∨ (j ≠ i ∧ l[j]? = some y) := by
  by_cases hij : i = j
  · subst hij
    rw [List.getElem?_set_self', Option.map_eq_map, Option.map_eq_some_iff] at h
    obtain ⟨_, -, hx⟩ := h
    exact .inl ⟨rfl, hx.symm⟩
  · rw [List.getElem?_set_ne hij] at h
    exact .inr ⟨fun heq => hij heq.symm, h⟩

section Step

variable {P P' : Pool A}

variable {c : A.Call} {p : Prog I (A.Reply c × A.Handle)}

theorem Step.busy_before (hs : Step R P P') {j : ℕ} (hj : P'.processes[j]? = some (.busy c p)) :
    (∃ p₀, P.processes[j]? = some (.busy c p₀) ∧
      (p = p₀ ∨ ∃ r k ans, p₀ = .call r k ∧ p = k ans)) ∨
    ∃ h, P.processes[j]? = some (.idle h) ∧ R.Start P h c ∧
      P' = { P with processes := P.processes.set j (.busy c (A.body c h)) } ∧ p = A.body c h := by
  cases hs with
  | spawn h _ =>
    rw [List.getElem?_append] at hj
    split at hj
    · exact .inl ⟨p, hj, .inl rfl⟩
    · cases List.mem_singleton.mp (List.mem_of_getElem? hj)
  | start i h c' hi hstart =>
    rcases process_of_set hj with ⟨rfl, heq⟩ | ⟨-, hj⟩
    · obtain ⟨rfl, hp⟩ := Process.busy.inj heq
      exact .inr ⟨h, hi, hstart, rfl, eq_of_heq hp⟩
    · exact .inl ⟨p, hj, .inl rfl⟩
  | act i c' r k ans w hi _ =>
    rcases process_of_set hj with ⟨rfl, heq⟩ | ⟨-, hj⟩
    · obtain ⟨rfl, hp⟩ := Process.busy.inj heq
      exact .inl ⟨.call r k, hi, .inr ⟨r, k, ans, rfl, eq_of_heq hp⟩⟩
    · exact .inl ⟨p, hj, .inl rfl⟩
  | finish i c' reply h _ =>
    rcases process_of_set hj with ⟨-, heq⟩ | ⟨-, hj⟩
    · cases heq
    · exact .inl ⟨p, hj, .inl rfl⟩

theorem Step.busy_after (hs : Step R P P') {j : ℕ} (hj : P.processes[j]? = some (.busy c p)) :
    (∃ p', P'.processes[j]? = some (.busy c p')) ∨ ∃ reply, ⟨c, reply⟩ ∈ P'.log := by
  have hlt : j < P.processes.length := (List.getElem?_eq_some_iff.mp hj).1
  cases hs with
  | spawn _ _ =>
    refine .inl ⟨p, ?_⟩
    rw [List.getElem?_append_left hlt]
    exact hj
  | start i h c' hi _ =>
    have hij : i ≠ j := by
      intro heq
      rw [heq, hj] at hi
      cases hi
    refine .inl ⟨p, ?_⟩
    rw [List.getElem?_set_ne hij]
    exact hj
  | act i c' r k ans w hi _ =>
    by_cases hij : i = j
    · subst hij
      rw [hj] at hi
      obtain ⟨rfl, -⟩ := Process.busy.inj (Option.some.inj hi)
      exact .inl ⟨k ans, List.getElem?_set_self hlt⟩
    · refine .inl ⟨p, ?_⟩
      rw [List.getElem?_set_ne hij]
      exact hj
  | finish i c' reply h hi =>
    by_cases hij : i = j
    · subst hij
      rw [hj] at hi
      obtain ⟨rfl, -⟩ := Process.busy.inj (Option.some.inj hi)
      exact .inr ⟨reply, List.mem_append_right _ (List.mem_singleton.mpr rfl)⟩
    · refine .inl ⟨p, ?_⟩
      rw [List.getElem?_set_ne hij]
      exact hj

theorem Step.logged_before (hs : Step R P P') {e : Event A} (he : e ∈ P'.log) :
    e ∈ P.log ∨ ∃ i h, P.processes[i]? = some (.busy e.call (.ret (e.reply, h))) ∧
      P'.processes = P.processes.set i (.idle h) := by
  cases hs with
  | spawn _ _ => exact .inl he
  | start _ _ _ _ _ => exact .inl he
  | act _ _ _ _ _ _ _ _ => exact .inl he
  | finish i c reply h hi =>
    rcases List.mem_append.mp he with hmem | hnew
    · exact .inl hmem
    · obtain rfl := List.mem_singleton.mp hnew
      exact .inr ⟨i, h, hi, rfl⟩

theorem Step.logged_after (hs : Step R P P') {e : Event A} (he : e ∈ P.log) : e ∈ P'.log := by
  cases hs with
  | spawn _ _ => exact he
  | start _ _ _ _ _ => exact he
  | act _ _ _ _ _ _ _ _ => exact he
  | finish _ _ _ _ _ => exact List.mem_append_left _ he

variable {serve : Server I σ}

theorem Steps.run_busy (hserve : ∀ w r, A.machine c w r (serve w r).1 (serve w r).2)
    (p : Prog I (A.Reply c × A.Handle)) {i : ℕ} (hi : P.processes[i]? = some (.busy c p)) :
    Steps R P { P with
      world := (p.run serve P.world).2
      processes := P.processes.set i (.busy c (.ret (p.run serve P.world).1)) } := by
  induction p generalizing P with
  | ret a =>
    obtain ⟨hlt, hget⟩ := List.getElem?_eq_some_iff.mp hi
    have hsame : P.processes.set i (.busy c (.ret a)) = P.processes := by
      rw [← hget, List.set_getElem_self]
    change Steps R P { P with processes := P.processes.set i (.busy c (.ret a)) }
    rw [hsame]
  | call r k ih =>
    have hlt : i < P.processes.length := (List.getElem?_eq_some_iff.mp hi).1
    have hact := Step.act (R := R) i c r k (serve P.world r).1 (serve P.world r).2 hi
      (hserve P.world r)
    have hrest := ih (serve P.world r).1
      (P := { P with
        world := (serve P.world r).2
        processes := P.processes.set i (.busy c (k (serve P.world r).1)) })
      (List.getElem?_set_self hlt)
    rw [List.set_set] at hrest
    exact .head hact hrest

/-- The pool after the call of one process has run to its end while the others waited. -/
def Pool.perform (serve : Server I σ) (P : Pool A) (i : ℕ) (h : A.Handle) (c : A.Call) :
    Pool A where
  world := ((A.body c h).run serve P.world).2
  processes := P.processes.set i (.idle ((A.body c h).run serve P.world).1.2)
  log := P.log ++ [⟨c, ((A.body c h).run serve P.world).1.1⟩]

theorem Pool.perform_idle {i : ℕ} {h : A.Handle} (c : A.Call)
    (hi : P.processes[i]? = some (.idle h)) :
    (P.perform serve i h c).processes[i]? =
      some (.idle ((A.body c h).run serve P.world).1.2) := by
  have hlt : i < P.processes.length := (List.getElem?_eq_some_iff.mp hi).1
  exact List.getElem?_set_self hlt

theorem Steps.perform {i : ℕ} {h : A.Handle}
    (hserve : ∀ w r, A.machine c w r (serve w r).1 (serve w r).2)
    (hi : P.processes[i]? = some (.idle h)) (hstart : R.Start P h c) :
    Steps R P (P.perform serve i h c) := by
  have hlt : i < P.processes.length := (List.getElem?_eq_some_iff.mp hi).1
  have hrun := Steps.run_busy (R := R) hserve (A.body c h)
    (P := { P with processes := P.processes.set i (.busy c (A.body c h)) })
    (List.getElem?_set_self hlt)
  rw [List.set_set] at hrun
  have hfinish := Step.finish (R := R) (P := { P with
      world := ((A.body c h).run serve P.world).2
      processes := P.processes.set i (.busy c (.ret ((A.body c h).run serve P.world).1)) })
    i c ((A.body c h).run serve P.world).1.1 ((A.body c h).run serve P.world).1.2
    (List.getElem?_set_self hlt)
  rw [List.set_set] at hfinish
  exact .head (.start i h c hi hstart) (hrun.tail hfinish)

end Step

def Pool.alone (A : Api I σ) (w : σ) (h : A.Handle) (log : List (Event A)) : Pool A :=
  ⟨w, [.idle h], log⟩

theorem Reachable.alone {w : σ} {h : A.Handle} (hspawn : R.Spawn (Pool.initial A w) h) :
    Reachable R w (Pool.alone A w h []) := .single (.spawn h hspawn)

theorem Steps.alone {serve : Server I σ} {w : σ} {h : A.Handle} {c : A.Call} (log : List (Event A))
    (hserve : ∀ w r, A.machine c w r (serve w r).1 (serve w r).2)
    (hstart : R.Start (Pool.alone A w h log) h c) {reply : A.Reply c} {h' : A.Handle} {w' : σ}
    (hrun : (A.body c h).run serve w = ((reply, h'), w')) :
    Steps R (Pool.alone A w h log) (Pool.alone A w' h' (log ++ [⟨c, reply⟩])) := by
  have hperform := Steps.perform (R := R) (P := Pool.alone A w h log) (i := 0) hserve rfl hstart
  unfold Pool.perform at hperform
  rw [show (Pool.alone A w h log).world = w from rfl, hrun] at hperform
  exact hperform

/-! ## Safety of pools -/

/-- What has to be shown of the calls, one at a time. -/
structure Verified (R : Rules A) where
  contract : Contract σ
  Guarantee : A.Call → σ → σ → Prop
  Holds : A.Handle → σ → Prop
  Records : Event A → σ → Prop
  allows : ∀ c, contract.Allows (Guarantee c)
  holds_stable : ∀ h, contract.Stable (Holds h)
  records_stable : ∀ e, contract.Stable (Records e)
  spawn : ∀ P h, contract.Inv P.world → R.Spawn P h → Holds h P.world
  start : ∀ P h c, contract.Inv P.world → (∀ e ∈ P.log, Records e P.world) →
    Holds h P.world → R.Start P h c →
    Safe (A.machine c) contract (Guarantee c) (A.body c h)
      (fun r w => Holds r.2 w ∧ Records ⟨c, r.1⟩ w) P.world

namespace Verified

variable (V : Verified R)

abbrev SafeCall (c : A.Call) (p : Prog I (A.Reply c × A.Handle)) (w : σ) : Prop :=
  Safe (A.machine c) V.contract (V.Guarantee c) p
    (fun r w => V.Holds r.2 w ∧ V.Records ⟨c, r.1⟩ w) w

structure Good (P : Pool A) : Prop where
  inv : V.contract.Inv P.world
  idle : ∀ h, .idle h ∈ P.processes → V.Holds h P.world
  busy : ∀ c p, .busy c p ∈ P.processes → V.SafeCall c p P.world
  log : ∀ e ∈ P.log, V.Records e P.world

/-- The shared state is as it was, or the answer to a call changed it within the call's
guarantee. -/
def Changes (P P' : Pool A) : Prop :=
  P'.world = P.world ∨ ∃ c, Acts c P P' ∧ V.Guarantee c P.world P'.world

variable {V}

theorem post_stable (c : A.Call) (r : A.Reply c × A.Handle) :
    V.contract.Stable (fun w => V.Holds r.2 w ∧ V.Records ⟨c, r.1⟩ w) := by
  intro w w' hle hinv h
  exact ⟨V.holds_stable r.2 w w' hle hinv h.1, V.records_stable _ w w' hle hinv h.2⟩

variable {P : Pool A}

theorem Good.later (h : V.Good P) {w : σ} (hle : V.contract.Le P.world w)
    (hinv : V.contract.Inv w) : V.Good { P with world := w } where
  inv := hinv
  idle x hx := V.holds_stable x _ _ hle hinv (h.idle x hx)
  busy c p hp := (h.busy c p hp).later (post_stable c) hle hinv
  log e he := V.records_stable e _ _ hle hinv (h.log e he)

theorem Good.set (h : V.Good P) (i : ℕ) (x : Process A)
    (hidle : ∀ y, x = .idle y → V.Holds y P.world)
    (hbusy : ∀ c p, x = .busy c p → V.SafeCall c p P.world) :
    V.Good { P with processes := P.processes.set i x } where
  inv := h.inv
  idle y hy := by
    rcases List.mem_or_eq_of_mem_set hy with hmem | heq
    · exact h.idle y hmem
    · exact hidle y heq.symm
  busy c p hp := by
    rcases List.mem_or_eq_of_mem_set hp with hmem | heq
    · exact h.busy c p hmem
    · exact hbusy c p heq.symm
  log := h.log

theorem Good.act (h : V.Good P) {i : ℕ} {c : A.Call} {r : I.Request}
    {k : I.Answer r → Prog I (A.Reply c × A.Handle)} {ans : I.Answer r} {w : σ}
    (hi : P.processes[i]? = some (.busy c (.call r k))) (hm : A.machine c P.world r ans w) :
    V.Guarantee c P.world w ∧ V.SafeCall c (k ans) w :=
  h.busy c _ (List.mem_of_getElem? hi) P.world (V.contract.refl _) h.inv ans w hm

variable {P' : Pool A}

theorem Good.acts (h : V.Good P) {c : A.Call} (ha : Acts c P P') :
    V.Guarantee c P.world P'.world := by
  obtain ⟨i, r, k, ans, w, hi, hm, rfl⟩ := ha
  exact (h.act hi hm).1

theorem Good.step (h : V.Good P) (hs : Step R P P') :
    V.Good P' ∧ V.Changes P P' := by
  cases hs with
  | spawn x hx =>
    refine ⟨⟨h.inv, ?_, ?_, h.log⟩, .inl rfl⟩
    · intro y hy
      rcases List.mem_append.mp hy with hmem | hnew
      · exact h.idle y hmem
      · obtain rfl := Process.idle.inj (List.mem_singleton.mp hnew)
        exact V.spawn P y h.inv hx
    · intro c p hp
      rcases List.mem_append.mp hp with hmem | hnew
      · exact h.busy c p hmem
      · cases List.mem_singleton.mp hnew
  | start i x c hi hc =>
    have hx := h.idle x (List.mem_of_getElem? hi)
    refine ⟨h.set i _ (fun y hy => by cases hy) ?_, .inl rfl⟩
    intro c' p' hp'
    cases hp'
    exact V.start P x c h.inv h.log hx hc
  | act i c r k ans w hi hm =>
    obtain ⟨hG, hk⟩ := h.act hi hm
    obtain ⟨hinv, hle⟩ := V.allows c _ _ h.inv hG
    have hacts : Acts c P _ := ⟨i, r, k, ans, w, hi, hm, rfl⟩
    refine ⟨(h.later hle hinv).set i _ (fun y hy => by cases hy) ?_, .inr ⟨c, hacts, hG⟩⟩
    intro c' p' hp'
    cases hp'
    exact hk
  | finish i c reply x hi =>
    have hret : V.Holds x P.world ∧ V.Records ⟨c, reply⟩ P.world :=
      h.busy c _ (List.mem_of_getElem? hi)
    have hset := h.set i (.idle x) (fun y hy => by cases hy; exact hret.1)
      (fun _ _ hy => by cases hy)
    refine ⟨⟨hset.inv, hset.idle, hset.busy, ?_⟩, .inl rfl⟩
    intro e he
    rcases List.mem_append.mp he with hmem | hnew
    · exact h.log e hmem
    · obtain rfl := List.mem_singleton.mp hnew
      exact hret.2

theorem good {w : σ} (hw : V.contract.Inv w) (h : Reachable R w P) : V.Good P := by
  induction h with
  | refl => exact ⟨hw, by simp [Pool.initial], by simp [Pool.initial], by simp [Pool.initial]⟩
  | tail _ hstep ih => exact (ih.step hstep).1

theorem Good.steps (h : V.Good P) (hs : Steps R P P') :
    V.Good P' ∧ V.contract.Le P.world P'.world := by
  induction hs with
  | refl => exact ⟨h, V.contract.refl _⟩
  | tail _ hstep ih =>
    obtain ⟨hgood, hle⟩ := ih
    obtain ⟨hgood', hchange⟩ := hgood.step hstep
    refine ⟨hgood', V.contract.trans hle ?_⟩
    rcases hchange with heq | ⟨c, -, hG⟩
    · rw [heq]
      exact V.contract.refl _
    · exact (V.allows c _ _ hgood.inv hG).2

end Verified

end Program
