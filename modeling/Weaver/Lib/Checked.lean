import Mathlib.Data.List.Basic
import Mathlib.Data.List.Forall2
import Mathlib.Data.UInt
import Mathlib.Order.Lattice
import Mathlib.Tactic.Common

/-!
# Fallible computations and machine integers

Fallible code is written in `Except`. `failIf` is the early return of a guard, and the `_eq_ok`
lemmas invert a computation that succeeded one statement at a time: a bind that returns `ok` ran
both of its parts, a guard that returns `ok` had a false condition, and a conversion of the error
type changes no success.

Machine integers are the fixed-width types of Lean. `UInt64` gets the linear order of its values,
and `checkedAdd` the addition that refuses to wrap.
-/

namespace Checked

/-- The early return of a guard: the error `e` when the condition `c` holds. -/
def failIf {ε : Type} (c : Prop) [Decidable c] (e : ε) : Except ε Unit :=
  if c then .error e else .ok ()

/-- The value of an option, or the error `e`. -/
def okOr {ε α : Type} (o : Option α) (e : ε) : Except ε α :=
  match o with
  | some a => .ok a
  | none => .error e

section Inversion

variable {ε ε' α β : Type}

@[simp]
theorem failIf_eq_ok {c : Prop} [Decidable c] {e : ε} {u : Unit} :
    failIf c e = .ok u ↔ ¬c := by
  unfold failIf
  split_ifs with h <;> simp [h]

@[simp]
theorem failIf_eq_error {c : Prop} [Decidable c] {e e' : ε} :
    failIf c e = .error e' ↔ c ∧ e = e' := by
  unfold failIf
  split_ifs with h <;> simp [h]

theorem failIf_neg {c : Prop} [Decidable c] {e : ε} (h : ¬c) : failIf c e = .ok () :=
  failIf_eq_ok.mpr h

theorem failIf_pos {c : Prop} [Decidable c] {e : ε} (h : c) : failIf c e = .error e :=
  failIf_eq_error.mpr ⟨h, rfl⟩

variable {e : ε} {a : α}

@[simp]
theorem okOr_eq_ok {o : Option α} : okOr o e = .ok a ↔ o = some a := by
  cases o <;> simp [okOr]

@[simp]
theorem okOr_some : okOr (some a) e = .ok a := rfl

@[simp]
theorem okOr_none : okOr (none : Option α) e = .error e := rfl

variable {x : Except ε α}

@[simp]
theorem toOption_eq_some : x.toOption = some a ↔ x = .ok a := by
  cases x <;> simp [Except.toOption]

variable {f : α → Except ε β}

@[simp]
theorem ok_bind : (Except.ok a >>= f) = f a := rfl

@[simp]
theorem error_bind : (Except.error e >>= f) = .error e := rfl

theorem pure_eq_ok : (pure a : Except ε α) = .ok a := rfl

@[simp]
theorem pure_eq_ok_iff {b : α} : (pure a : Except ε α) = .ok b ↔ a = b := by
  rw [pure_eq_ok]
  simp

@[simp]
theorem bind_eq_ok {b : β} :
    (x >>= f) = .ok b ↔ ∃ a, x = .ok a ∧ f a = .ok b := by
  cases x <;> simp

@[simp]
theorem mapError_eq_ok {f : ε → ε'} :
    x.mapError f = .ok a ↔ x = .ok a := by
  cases x <;> simp [Except.mapError]

@[simp]
theorem mapError_ok {f : ε → ε'} : (Except.ok a).mapError f = .ok a := rfl

@[simp]
theorem map_eq_ok {f : α → β} {b : β} :
    x.map f = .ok b ↔ ∃ a, x = .ok a ∧ f a = b := by
  cases x <;> simp [Except.map]

end Inversion

/-! ## Running a check over a list -/

section MapM

variable {ε α β : Type}

variable {f : α → Except ε β}

@[simp]
theorem mapM_nil : ([] : List α).mapM f = .ok [] := rfl

variable {xs : List α}

theorem mapM_cons {x : α} :
    (x :: xs).mapM f = (do let y ← f x; let ys ← xs.mapM f; pure (y :: ys)) := by
  simp [List.mapM_cons]

theorem mapM_eq_ok {ys : List β} :
    xs.mapM f = .ok ys ↔ List.Forall₂ (fun x y => f x = .ok y) xs ys := by
  induction xs generalizing ys with
  | nil =>
    simp only [mapM_nil, Except.ok.injEq]
    constructor
    · rintro rfl
      exact .nil
    · intro h
      cases h
      rfl
  | cons x xs ih =>
    rw [mapM_cons]
    simp only [bind_eq_ok, pure_eq_ok_iff]
    constructor
    · rintro ⟨y, hy, ys, hys, rfl⟩
      exact .cons hy (ih.mp hys)
    · intro h
      cases h with
      | cons hy hys => exact ⟨_, hy, _, ih.mpr hys, rfl⟩

theorem mapM_ok_of_forall {g : α → β} (h : ∀ x ∈ xs, f x = .ok (g x)) :
    xs.mapM f = .ok (xs.map g) := by
  rw [mapM_eq_ok, List.forall₂_map_right_iff, List.forall₂_same]
  exact h

end MapM

/-! ## Machine integers -/

/-- The values of a 64-bit word are ordered as numbers. -/
instance linearOrderUInt64 : LinearOrder UInt64 where
  le_refl := UInt64.le_refl
  le_trans _ _ _ := UInt64.le_trans
  lt_iff_le_not_ge a b := by
    rw [UInt64.lt_iff_toNat_lt, UInt64.le_iff_toNat_le, UInt64.le_iff_toNat_le]
    omega
  le_antisymm _ _ := UInt64.le_antisymm
  le_total := UInt64.le_total
  toDecidableLE := inferInstance
  toDecidableEq := inferInstance
  toDecidableLT := inferInstance
  min := min
  max := max
  min_def _ _ := rfl
  max_def _ _ := rfl

instance linearOrderUInt8 : LinearOrder UInt8 where
  le_refl := UInt8.le_refl
  le_trans _ _ _ := UInt8.le_trans
  lt_iff_le_not_ge a b := by
    rw [UInt8.lt_iff_toNat_lt, UInt8.le_iff_toNat_le, UInt8.le_iff_toNat_le]
    omega
  le_antisymm _ _ := UInt8.le_antisymm
  le_total := UInt8.le_total
  toDecidableLE := inferInstance
  toDecidableEq := inferInstance
  toDecidableLT := inferInstance
  min := min
  max := max
  min_def _ _ := rfl
  max_def _ _ := rfl

/-- `u64::checked_add`: the sum, unless it overflows. -/
def checkedAdd (a b : UInt64) : Option UInt64 :=
  if a.toNat + b.toNat < 2^64 then some (a + b) else none

theorem checkedAdd_eq_some {a b c : UInt64} :
    checkedAdd a b = some c ↔ c.toNat = a.toNat + b.toNat := by
  have hc := c.toNat_lt
  unfold checkedAdd
  split_ifs with h
  · simp only [Option.some.injEq]
    rw [← UInt64.toNat_inj, UInt64.toNat_add, Nat.mod_eq_of_lt h]
    exact eq_comm
  · simp only [false_iff]
    omega

end Checked
