import Weaver.Lib.Pool

/-!
# Crashes and phases

Two additions to interleaved processes. A call may crash at any of its requests, before or after
the request took effect (`Api.crashing`); it then ends without a reply, and its process may go on to
other calls.

The calls of a pool may also be divided into phases, such that calls of different phases do not
overlap. Each phase has its own way in which the shared state changes, which its calls may rely on;
what always holds of the shared state is the same in all of them. `Phased.inv_of_reachable` draws
the conclusion for every reachable pool.
-/

namespace Program

variable {I : Interface} {α β σ : Type}

/-! ## Two more rules -/

section Rules

variable {M : Machine I σ} {C C' : Contract σ} {G G' : σ → σ → Prop}

theorem Safe.mono (hinv : ∀ w, C'.Inv w → C.Inv w) (hle : ∀ w w', C'.Le w w' → C.Le w w')
    (hG : ∀ w w', G w w' → G' w w') {p : Prog I α} {Q : α → σ → Prop} {w : σ}
    (h : Safe M C G p Q w) : Safe M C' G' p Q w := by
  induction p generalizing w with
  | ret a => exact h
  | call r k ih =>
    intro w₁ hle₁ hinv₁ ans w₂ hstep
    obtain ⟨hstepG, hk⟩ := h w₁ (hle w w₁ hle₁) (hinv w₁ hinv₁) ans w₂ hstep
    exact ⟨hG w₁ w₂ hstepG, ih ans hk⟩

theorem Safe.and_forall {ι : Type} {K : ι → Prop} {p : Prog I α} {Q : α → σ → Prop}
    {Q' : ι → α → σ → Prop} {w : σ} (h : Safe M C G p Q w)
    (h' : ∀ i, K i → Safe M C G p (Q' i) w) :
    Safe M C G p (fun a w => Q a w ∧ ∀ i, K i → Q' i a w) w := by
  induction p generalizing w with
  | ret a => exact ⟨h, h'⟩
  | call r k ih =>
    intro w₁ hle₁ hinv₁ ans w₂ hstep
    obtain ⟨hG, hk⟩ := h w₁ hle₁ hinv₁ ans w₂ hstep
    exact ⟨hG, ih ans hk fun i hi => (h' i hi w₁ hle₁ hinv₁ ans w₂ hstep).2⟩

end Rules

/-! ## Crashes -/

/-- The requests of an interface, whose caller may crash instead of getting an answer. -/
abbrev Interface.crashing (I : Interface) : Interface := ⟨I.Request, fun r => Option (I.Answer r)⟩

def Prog.crashing (crashed : β) (f : α → β) : Prog I α → Prog I.crashing β
  | .ret a => .ret (f a)
  | .call r k => .call r fun
    | none => .ret crashed
    | some ans => (k ans).crashing crashed f

/-- The machine on which callers crash, before their request took effect or after. -/
def Machine.crashing (M : Machine I σ) : Machine I.crashing σ := fun w r ans w' =>
  match ans with
  | none => w' = w ∨ ∃ a, M w r a w'
  | some a => M w r a w'

/-- The calls, each of which may crash; it then has no reply, and leaves the handle as it was. -/
def Api.crashing (A : Api I σ) : Api I.crashing σ where
  Handle := A.Handle
  Call := A.Call
  Reply c := Option (A.Reply c)
  body c h := (A.body c h).crashing (none, h) fun r => (some r.1, r.2)
  machine c := (A.machine c).crashing

theorem Safe.crashing {M : Machine I σ} {C : Contract σ} {G : σ → σ → Prop} (hstay : ∀ w, G w w)
    {crashed : β} {f : α → β} {Q : α → σ → Prop} {Q' : β → σ → Prop} (hc : ∀ w, Q' crashed w)
    (hf : ∀ a w, Q a w → Q' (f a) w) {p : Prog I α} {w : σ} (h : Safe M C G p Q w) :
    Safe M.crashing C G (p.crashing crashed f) Q' w := by
  induction p generalizing w with
  | ret a => exact hf a w h
  | call r k ih =>
    unfold Prog.crashing
    intro w₁ hle₁ hinv₁ ans w₂ hstep
    cases ans with
    | none =>
      -- the request may have taken effect although its caller is gone
      have hG : G w₁ w₂ := by
        rcases hstep with rfl | ⟨a, hstep⟩
        · exact hstay _
        · exact (h w₁ hle₁ hinv₁ a w₂ hstep).1
      exact ⟨hG, hc w₂⟩
    | some a =>
      obtain ⟨hG, hk⟩ := h w₁ hle₁ hinv₁ a w₂ hstep
      exact ⟨hG, ih a hk⟩

def Server.crashing (serve : Server I σ) : Server I.crashing σ := fun w r =>
  (some (serve w r).1, (serve w r).2)

/-! ## Schedules -/

section Schedule

variable {A : Api I σ} {R : Rules A}

variable (A) in
/-- A move of one process: it makes a call, or it goes on with the one that it has made. -/
inductive Move where
  | launch (i : ℕ) (c : A.Call)
  | advance (i : ℕ)

/-- The pool after a move: the process has started its call, or its request is answered, or its call
returns. A move that the process cannot make changes nothing. -/
def Pool.move (serve : Server I σ) (P : Pool A) : Move A → Pool A
  | .launch i c =>
    match P.processes[i]? with
    | some (.idle h) => { P with processes := P.processes.set i (.busy c (A.body c h)) }
    | _ => P
  | .advance i =>
    match P.processes[i]? with
    | some (.busy c (.call r k)) =>
      { P with
        world := (serve P.world r).2
        processes := P.processes.set i (.busy c (k (serve P.world r).1)) }
    | some (.busy c (.ret r)) =>
      { P with processes := P.processes.set i (.idle r.2), log := P.log ++ [⟨c, r.1⟩] }
    | _ => P

/-- The pool after the moves, one after the other. -/
def Pool.follow (serve : Server I σ) (P : Pool A) (moves : List (Move A)) : Pool A :=
  moves.foldl (Pool.move serve) P

theorem Steps.follow {serve : Server I σ}
    (hserve : ∀ c w r, A.machine c w r (serve w r).1 (serve w r).2) (P : Pool A)
    {moves : List (Move A)}
    (hstart : ∀ i c, .launch i c ∈ moves → ∀ P h, R.Start P h c) :
    Steps R P (P.follow serve moves) := by
  induction moves generalizing P with
  | nil => exact .refl
  | cons move rest ih =>
    have hrest : Steps R (P.move serve move) ((P.move serve move).follow serve rest) :=
      ih (P.move serve move) fun i c hmem => hstart i c (List.mem_cons_of_mem _ hmem)
    refine .trans ?_ hrest
    cases move with
    | launch i c =>
      simp only [Pool.move]
      split
      · next h hi => exact .single (.start i h c hi (hstart i c List.mem_cons_self P h))
      · exact .refl
    | advance i =>
      simp only [Pool.move]
      split
      · next c r k hi => exact .single (.act i c r k _ _ hi (hserve c P.world r))
      · next c r hi => exact .single (.finish i c r.1 r.2 hi)
      · exact .refl

end Schedule

/-! ## Phases -/

/-- What has to be shown of the calls when those of different phases do not overlap. -/
structure Phased {A : Api I σ} (R : Rules A) where
  Phase : Type
  phase : A.Call → Phase
  Inv : σ → Prop
  Le : Phase → σ → σ → Prop
  refl : ∀ m w, Le m w w
  trans : ∀ m {w₁ w₂ w₃}, Le m w₁ w₂ → Le m w₂ w₃ → Le m w₁ w₃
  Guarantee : A.Call → σ → σ → Prop
  allows : ∀ c w w', Inv w → Guarantee c w w' → Inv w' ∧ Le (phase c) w w'
  /-- A call is made only while the calls in progress are of its phase. -/
  apart : ∀ P h c, R.Start P h c → ∀ c' p, .busy c' p ∈ P.processes → phase c' = phase c
  start : ∀ P h c, Inv P.world → R.Start P h c →
    Safe (A.machine c) ⟨Inv, Le (phase c), refl _, trans _⟩ (Guarantee c) (A.body c h)
      (fun _ _ => True) P.world

namespace Phased

variable {A : Api I σ} {R : Rules A} (V : Phased R)

def contract (m : V.Phase) : Contract σ := ⟨V.Inv, V.Le m, V.refl m, V.trans m⟩

/-- The residual program of a call is safe in the call's phase. -/
abbrev SafeCall (c : A.Call) (p : Prog I (A.Reply c × A.Handle)) (w : σ) : Prop :=
  Safe (A.machine c) (V.contract (V.phase c)) (V.Guarantee c) p (fun _ _ => True) w

structure Good (P : Pool A) : Prop where
  inv : V.Inv P.world
  busy : ∀ c p, .busy c p ∈ P.processes → V.SafeCall c p P.world
  one : ∀ c p c' p', .busy c p ∈ P.processes → .busy c' p' ∈ P.processes → V.phase c = V.phase c'

variable {V}

variable {P : Pool A}

theorem Good.set (h : V.Good P) (i : ℕ) (x : Process A) (log : List (Event A))
    (hx : ∀ c p, x = .busy c p → V.SafeCall c p P.world ∧
      ∀ c' p', .busy c' p' ∈ P.processes → V.phase c' = V.phase c) :
    V.Good { P with processes := P.processes.set i x, log := log } where
  inv := h.inv
  busy c p hp := by
    rcases List.mem_or_eq_of_mem_set hp with hmem | heq
    · exact h.busy c p hmem
    · exact (hx c p heq.symm).1
  one c p c' p' hp hp' := by
    rcases List.mem_or_eq_of_mem_set hp with hmem | heq
    · rcases List.mem_or_eq_of_mem_set hp' with hmem' | heq'
      · exact h.one c p c' p' hmem hmem'
      · exact (hx c' p' heq'.symm).2 c p hmem
    · rcases List.mem_or_eq_of_mem_set hp' with hmem' | heq'
      · exact ((hx c p heq.symm).2 c' p' hmem').symm
      · obtain ⟨rfl, -⟩ := Process.busy.inj (heq.trans heq'.symm)
        rfl

theorem Good.later (h : V.Good P) {c : A.Call} {p : Prog I (A.Reply c × A.Handle)}
    (hc : .busy c p ∈ P.processes) {w : σ} (hG : V.Guarantee c P.world w) :
    V.Good { P with world := w } := by
  obtain ⟨hinv, hle⟩ := V.allows c _ _ h.inv hG
  refine ⟨hinv, ?_, h.one⟩
  intro c' p' hp'
  -- the change is one of the phase, and the other calls are in it
  have hle' : V.Le (V.phase c') P.world w := by
    rw [h.one c' p' c p hp' hc]
    exact hle
  exact (h.busy c' p' hp').later (fun _ _ _ _ _ _ => trivial) hle' hinv

theorem Good.step {P' : Pool A} (h : V.Good P) (hs : Step R P P') : V.Good P' := by
  cases hs with
  | spawn x _ =>
    have hold : ∀ c p, .busy c p ∈ P.processes ++ [.idle x] → .busy c p ∈ P.processes := by
      intro c p hp
      rcases List.mem_append.mp hp with hmem | hnew
      · exact hmem
      · cases List.mem_singleton.mp hnew
    exact ⟨h.inv, fun c p hp => h.busy c p (hold c p hp),
      fun c p c' p' hp hp' => h.one c p c' p' (hold c p hp) (hold c' p' hp')⟩
  | start i x c hi hc =>
    refine h.set i _ P.log ?_
    intro c' p' hp'
    cases hp'
    exact ⟨V.start P x c h.inv hc, V.apart P x c hc⟩
  | act i c r k ans w hi hm =>
    have hmem := List.mem_of_getElem? hi
    obtain ⟨hG, hk⟩ := h.busy c _ hmem P.world (V.refl _ _) h.inv ans w hm
    refine (h.later hmem hG).set i _ P.log ?_
    intro c' p' hp'
    cases hp'
    exact ⟨hk, fun c' p' hp' => h.one c' p' c _ hp' hmem⟩
  | finish i c reply x hi =>
    refine h.set i _ _ ?_
    intro c' p' hp'
    cases hp'

theorem inv_of_reachable (V : Phased R) {w : σ} (hw : V.Inv w) {P : Pool A}
    (h : Reachable R w P) : V.Inv P.world := by
  have hgood : V.Good P := by
    induction h with
    | refl => exact ⟨hw, by simp [Pool.initial], by simp [Pool.initial]⟩
    | tail _ hstep ih => exact ih.step hstep
  exact hgood.inv

end Phased

end Program
