import Weaver.Lib.Wire

/-!
# Exact decoders

A decoder may accept inputs that no encoder writes. `Consumes` excludes it: what the decoder consumed
is the encoding of what it returned. Together with `Inverts`, the inputs that the decoder accepts are
exactly the encodings, each with any rest.

The primitive decoders are characterised by what they accept, so that a decoder built from them is
taken apart by rewriting: each step of it splits its part off the front of the input.
-/

namespace Wire

open Checked

theorem be16_ofBe {b : Bytes} (h : b.length = 2) : be16 (UInt16.ofNat (ofBe b)) = b := by
  have hlt : ofBe b < 2^16 := by
    have := ofBe_lt b
    rw [h] at this
    omega
  rw [be16, UInt16.toNat_ofNat_of_lt' hlt, ← h]
  exact toBe_ofBe b

theorem be32_ofBe {b : Bytes} (h : b.length = 4) : be32 (UInt32.ofNat (ofBe b)) = b := by
  have hlt : ofBe b < 2^32 := by
    have := ofBe_lt b
    rw [h] at this
    omega
  rw [be32, UInt32.toNat_ofNat_of_lt' hlt, ← h]
  exact toBe_ofBe b

namespace Decoder

variable {ε α β : Type} {b rest : Bytes}

/-! ### What the primitive decoders accept -/

variable {a : α}

theorem pure_run_eq_ok {a' : α} : (pure a : Decoder ε α).run b = .ok (a', rest) ↔
    a = a' ∧ b = rest := by
  rw [pure_run, Except.ok.injEq, Prod.mk.injEq]

variable {d : Decoder ε α}

theorem bind_run_eq_ok {f : α → Decoder ε β} {c : β} :
    (d >>= f).run b = .ok (c, rest) ↔
      ∃ a rest', d.run b = .ok (a, rest') ∧ (f a).run rest' = .ok (c, rest) := by
  rw [bind_run, bind_eq_ok, Prod.exists]

theorem ite_bind {c : Prop} [Decidable c] {d d' : Decoder ε α} {f : α → Decoder ε β} :
    (if c then d >>= f else d' >>= f) = (if c then d else d') >>= f := by
  split <;> rfl

theorem lift_run_eq_ok {x : Except ε α} : (lift x).run b = .ok (a, rest) ↔
    x = .ok a ∧ b = rest := by
  rw [lift_run, map_eq_ok]
  constructor
  · rintro ⟨a', ha', heq⟩
    obtain ⟨rfl, rfl⟩ := Prod.mk.inj heq
    exact ⟨ha', rfl⟩
  · rintro ⟨ha, rfl⟩
    exact ⟨a, ha, rfl⟩

variable {e : ε}

theorem take_run_eq_ok {n : ℕ} {a : Bytes} : (take e n).run b = .ok (a, rest) ↔
    a.length = n ∧ b = a ++ rest := by
  constructor
  · intro h
    unfold take at h
    simp only at h
    split at h
    · next hlen =>
      obtain ⟨rfl, rfl⟩ := Prod.mk.inj (Except.ok.inj h)
      exact ⟨hlen, front_append_back.symm⟩
    · cases h
  · rintro ⟨hlen, rfl⟩
    exact take_run hlen

theorem array_run_eq_ok {n : ℕ} {a : BytesN n} : (array e n).run b = .ok (a, rest) ↔
    b = a.val ++ rest := by
  constructor
  · intro h
    unfold array at h
    simp only at h
    split at h
    · obtain ⟨rfl, rfl⟩ := Prod.mk.inj (Except.ok.inj h)
      exact front_append_back.symm
    · cases h
  · intro h
    rw [h, array_run]

theorem u8_run_eq_ok {x : UInt8} : (u8 e).run b = .ok (x, rest) ↔ b = x :: rest := by
  constructor
  · intro h
    unfold u8 at h
    simp only at h
    split at h
    · obtain ⟨rfl, rfl⟩ := Prod.mk.inj (Except.ok.inj h)
      rfl
    · cases h
  · intro h
    rw [h, u8_run]

theorem u16_run_eq_ok {x : UInt16} : (u16 e).run b = .ok (x, rest) ↔
    b = be16 x ++ rest := by
  constructor
  · intro h
    unfold u16 at h
    simp only [bind_run_eq_ok, array_run_eq_ok, pure_run_eq_ok] at h
    obtain ⟨a, _, rfl, rfl, rfl⟩ := h
    rw [be16_ofBe a.property]
  · intro h
    rw [h, u16_run]

theorem u32_run_eq_ok {x : UInt32} : (u32 e).run b = .ok (x, rest) ↔
    b = be32 x ++ rest := by
  constructor
  · intro h
    unfold u32 at h
    simp only [bind_run_eq_ok, array_run_eq_ok, pure_run_eq_ok] at h
    obtain ⟨a, _, rfl, rfl, rfl⟩ := h
    rw [be32_ofBe a.property]
  · intro h
    rw [h, u32_run]

theorem u64_run_eq_ok {x : UInt64} : (u64 e).run b = .ok (x, rest) ↔
    b = be64 x ++ rest := by
  constructor
  · intro h
    unfold u64 at h
    simp only [bind_run_eq_ok, array_run_eq_ok, pure_run_eq_ok] at h
    obtain ⟨a, _, rfl, rfl, rfl⟩ := h
    rw [be64_ofBe a.property]
  · intro h
    rw [h, u64_run]

theorem magic_run_eq_ok {m : Bytes} {u : Unit} : (magic e m).run b = .ok (u, rest) ↔
    b = m ++ rest := by
  constructor
  · intro h
    unfold magic at h
    simp only [bind_run_eq_ok, take_run_eq_ok, lift_run_eq_ok, failIf_eq_ok,
      Decidable.not_not] at h
    obtain ⟨_, _, ⟨-, rfl⟩, rfl, rfl⟩ := h
    rfl
  · intro h
    rw [h, magic_run]

theorem finish_run_eq_ok {u : Unit} : (finish e).run b = .ok (u, rest) ↔
    b = [] ∧ rest = [] := by
  constructor
  · intro h
    unfold finish at h
    simp only at h
    split at h
    · next hnil => exact ⟨hnil, (Prod.mk.inj (Except.ok.inj h)).2.symm⟩
    · cases h
  · rintro ⟨rfl, rfl⟩
    exact finish_run

theorem decode_eq_ok :
    d.decode b = .ok a ↔ ∃ rest, d.run b = .ok (a, rest) := by
  unfold decode
  rw [map_eq_ok]
  constructor
  · rintro ⟨⟨a', rest⟩, hrun, rfl⟩
    exact ⟨rest, hrun⟩
  · rintro ⟨rest, hrun⟩
    exact ⟨(a, rest), hrun, rfl⟩

/-! ### Consuming an encoding -/

/-- What the decoder `d` consumes is what the encoder `f` writes for the value that it returns. -/
def Consumes {ε' : Type} (d : Decoder ε α) (f : α → Except ε' Bytes) : Prop :=
  ∀ b a rest, d.run b = .ok (a, rest) → ∃ bytes, f a = .ok bytes ∧ b = bytes ++ rest

theorem Consumes.many {ε' : Type} {f : α → Except ε' Bytes} (h : d.Consumes f) :
    ∀ {n : ℕ} {b : Bytes} {l : List α} {rest : Bytes},
      (many n d).run b = .ok (l, rest) →
      l.length = n ∧ ∃ bs, l.mapM f = .ok bs ∧ b = bs.flatten ++ rest := by
  intro n
  induction n with
  | zero =>
    intro b l rest hrun
    obtain ⟨rfl, rfl⟩ := pure_run_eq_ok.mp hrun
    exact ⟨rfl, [], mapM_nil, rfl⟩
  | succ n ih =>
    intro b l rest hrun
    unfold Decoder.many at hrun
    simp only [bind_run_eq_ok, pure_run_eq_ok] at hrun
    obtain ⟨x, _, hx, xs, _, hxs, rfl, rfl⟩ := hrun
    obtain ⟨bytes, hbytes, rfl⟩ := h _ _ _ hx
    obtain ⟨hlen, bs, hbs, rfl⟩ := ih hxs
    refine ⟨by rw [List.length_cons, hlen], bytes :: bs, ?_, ?_⟩
    · rw [mapM_eq_ok] at hbs ⊢
      exact .cons hbytes hbs
    · rw [List.flatten_cons, List.append_assoc]

end Decoder

end Wire
