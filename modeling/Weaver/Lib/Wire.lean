import Weaver.Lib.Checked

/-!
# Byte strings and decoders

Byte strings are lists of bytes, and an array `[u8; n]` is a byte string that carries its length.
Integers are written big-endian. A `Decoder` reads from the front of a byte string; the error that a
short input raises, of the caller's type, is an argument of each primitive.

Each primitive comes with a `simp` lemma that reads back what an encoder wrote in front of any rest
(`array_run`, `u64_run`, …). A record's decoder inverts its encoder by them alone.
-/

namespace Wire

open Checked

abbrev Bytes := List UInt8

/-- An array of `n` bytes. -/
abbrev BytesN (n : ℕ) := { b : Bytes // b.length = n }

/-! ## Reading byte strings

The kernel evaluates the runs of the samples, and spends most of its time on byte strings. What
these functions do is in the library; as recursors, they are unfolded several times as fast. -/

section Reading

variable {n : ℕ} {a b : Bytes}

def eqBytes (a : Bytes) : Bytes → Bool :=
  a.rec (fun b => b.isEmpty) fun x _ eqRest b =>
    b.rec false fun y rest _ => Nat.beq x.toNat y.toNat && eqRest rest

theorem eqBytes_iff : eqBytes a b = true ↔ a = b := by
  induction a generalizing b with
  | nil => cases b <;> simp [eqBytes]
  | cons x a ih =>
    cases b with
    | nil => simp [eqBytes]
    | cons y b =>
      change (Nat.beq x.toNat y.toNat && eqBytes a b) = true ↔ _
      simp [ih, UInt8.toNat_inj]

instance decidableEqBytes : DecidableEq Bytes := fun _ _ => decidable_of_iff _ eqBytes_iff

def front (n : ℕ) : Bytes → Bytes :=
  n.rec (fun _ => []) fun _ frontRest b => b.rec [] fun x rest _ => x :: frontRest rest

def back (n : ℕ) : Bytes → Bytes :=
  n.rec (fun b => b) fun _ backRest b => b.rec [] fun _ rest _ => backRest rest

theorem front_eq_take : front n b = b.take n := by
  induction n generalizing b with
  | zero => rfl
  | succ n ih =>
    cases b with
    | nil => rfl
    | cons x b => exact congrArg (x :: ·) ih

theorem back_eq_drop : back n b = b.drop n := by
  induction n generalizing b with
  | zero => rfl
  | succ n ih =>
    cases b with
    | nil => rfl
    | cons x b => exact ih

theorem front_append_back : front n b ++ back n b = b := by
  rw [front_eq_take, back_eq_drop, List.take_append_drop]

theorem front_append (h : a.length = n) : front n (a ++ b) = a := by
  rw [front_eq_take, List.take_left' h]

theorem back_append (h : a.length = n) : back n (a ++ b) = b := by
  rw [back_eq_drop, List.drop_left' h]

end Reading

instance lawfulBEqUInt64 : LawfulBEq UInt64 := inferInstance

instance lawfulBEqBytes : LawfulBEq Bytes := inferInstance

instance lawfulBEqBytes32 : LawfulBEq (BytesN 32) := inferInstance

theorem length_zeroes (n : ℕ) : (List.replicate n (0 : UInt8)).length = n := List.length_replicate

/-- The array of `n` zero bytes. -/
def zeroes (n : ℕ) : BytesN n := ⟨List.replicate n 0, length_zeroes n⟩

/-! ## Big-endian integers -/

/-- The `k` low bytes of `n`, most significant first. -/
def toBe : ℕ → ℕ → Bytes
  | 0, _ => []
  | k + 1, n => UInt8.ofNat (n / 256^k) :: toBe k n

/-- The number whose bytes, most significant first, are `b`. -/
def ofBe (b : Bytes) : ℕ := b.rec (fun n => n) (fun x _ ofRest n => ofRest (n * 256 + x.toNat)) 0

@[simp]
theorem toBe_length (k n : ℕ) : (toBe k n).length = k := by
  induction k with
  | zero => rfl
  | succ k ih => simp [toBe, ih]

theorem toBe_succ (k n : ℕ) : toBe (k + 1) n = toBe k (n / 256) ++ [UInt8.ofNat n] := by
  induction k with
  | zero => simp [toBe]
  | succ k ih => rw [toBe, ih, toBe, List.cons_append, pow_succ', Nat.div_div_eq_div_mul]

theorem ofBe_concat (b : Bytes) (x : UInt8) : ofBe (b ++ [x]) = ofBe b * 256 + x.toNat := by
  unfold ofBe
  generalize 0 = n
  induction b generalizing n with
  | nil => rfl
  | cons y b ih => exact ih _

theorem ofBe_toBe (k n : ℕ) : ofBe (toBe k n) = n % 256^k := by
  induction k generalizing n with
  | zero => simp [toBe, ofBe, Nat.mod_one]
  | succ k ih =>
    have hx : (UInt8.ofNat n).toNat = n % 256 := by simp
    rw [toBe_succ, ofBe_concat, ih, hx, pow_succ', Nat.mod_mul]
    omega

theorem toBe_ofBe (b : Bytes) : toBe b.length (ofBe b) = b := by
  induction b using List.reverseRecOn with
  | nil => rfl
  | append_singleton b x ih =>
    have hx := x.toNat_lt
    have hdiv : (ofBe b * 256 + x.toNat) / 256 = ofBe b := by omega
    have hmod : UInt8.ofNat (ofBe b * 256 + x.toNat) = x := by
      rw [← UInt8.toNat_inj]
      simp only [UInt8.toNat_ofNat']
      omega
    rw [List.length_append, List.length_singleton, toBe_succ, ofBe_concat, hdiv, hmod, ih]

theorem ofBe_lt (b : Bytes) : ofBe b < 256^b.length := by
  induction b using List.reverseRecOn with
  | nil => simp [ofBe]
  | append_singleton b x ih =>
    have hx := x.toNat_lt
    rw [ofBe_concat, List.length_append, List.length_singleton, pow_succ]
    omega

/-- `u16::to_be_bytes`. -/
def be16 (x : UInt16) : Bytes := toBe 2 x.toNat

/-- `u32::to_be_bytes`. -/
def be32 (x : UInt32) : Bytes := toBe 4 x.toNat

/-- `u64::to_be_bytes`. -/
def be64 (x : UInt64) : Bytes := toBe 8 x.toNat

@[simp]
theorem be16_length (x : UInt16) : (be16 x).length = 2 := toBe_length _ _

@[simp]
theorem be32_length (x : UInt32) : (be32 x).length = 4 := toBe_length _ _

@[simp]
theorem be64_length (x : UInt64) : (be64 x).length = 8 := toBe_length _ _

theorem ofBe_be16 (x : UInt16) : UInt16.ofNat (ofBe (be16 x)) = x := by
  have hx := x.toNat_lt
  rw [be16, ofBe_toBe, Nat.mod_eq_of_lt (by omega), UInt16.ofNat_toNat]

theorem ofBe_be32 (x : UInt32) : UInt32.ofNat (ofBe (be32 x)) = x := by
  have hx := x.toNat_lt
  rw [be32, ofBe_toBe, Nat.mod_eq_of_lt (by omega), UInt32.ofNat_toNat]

theorem ofBe_be64 (x : UInt64) : UInt64.ofNat (ofBe (be64 x)) = x := by
  have hx := x.toNat_lt
  rw [be64, ofBe_toBe, Nat.mod_eq_of_lt (by omega), UInt64.ofNat_toNat]

theorem be64_ofBe {b : Bytes} (h : b.length = 8) : be64 (UInt64.ofNat (ofBe b)) = b := by
  have hlt : ofBe b < 2^64 := by
    have := ofBe_lt b
    rw [h] at this
    omega
  rw [be64, UInt64.toNat_ofNat_of_lt' hlt]
  have := toBe_ofBe b
  rwa [h] at this

theorem be64_injective : Function.Injective be64 := by
  intro x y h
  rw [← ofBe_be64 x, h, ofBe_be64]

/-! ## Decoders -/

/-- A decoder that reads an `α` from the front of a byte string and returns the unread rest. -/
structure Decoder (ε α : Type) where
  run : Bytes → Except ε (α × Bytes)

namespace Decoder

variable {ε α β : Type}

instance : Monad (Decoder ε) where
  pure a := ⟨fun b => .ok (a, b)⟩
  bind d f := ⟨fun b => d.run b >>= fun (a, rest) => (f a).run rest⟩

def fail (e : ε) : Decoder ε α := ⟨fun _ => .error e⟩

def lift (x : Except ε α) : Decoder ε α := ⟨fun b => x.map fun a => (a, b)⟩

/-- The next `n` bytes. -/
def take (e : ε) (n : ℕ) : Decoder ε Bytes :=
  ⟨fun b => if (front n b).length = n then .ok (front n b, back n b) else .error e⟩

/-- The next `n` bytes, as an array. -/
def array (e : ε) (n : ℕ) : Decoder ε (BytesN n) :=
  ⟨fun b => if h : (front n b).length = n then .ok (⟨front n b, h⟩, back n b) else .error e⟩

/-- The literal `m`, which must come next. -/
def magic (e : ε) (m : Bytes) : Decoder ε Unit := do
  let b ← take e m.length
  lift (failIf (b ≠ m) e)

def u8 (e : ε) : Decoder ε UInt8 :=
  ⟨fun b => match b with
    | x :: rest => .ok (x, rest)
    | [] => .error e⟩

def u16 (e : ε) : Decoder ε UInt16 := do return UInt16.ofNat (ofBe (← array e 2).val)

def u32 (e : ε) : Decoder ε UInt32 := do return UInt32.ofNat (ofBe (← array e 4).val)

def u64 (e : ε) : Decoder ε UInt64 := do return UInt64.ofNat (ofBe (← array e 8).val)

def finish (e : ε) : Decoder ε Unit :=
  ⟨fun b => if b = [] then .ok ((), []) else .error e⟩

def many (n : ℕ) (d : Decoder ε α) : Decoder ε (List α) :=
  match n with
  | 0 => pure []
  | n + 1 => do
    let x ← d
    let xs ← many n d
    return x :: xs

/-- A decoder applied to a whole input; what it leaves unread is dropped. -/
def decode (d : Decoder ε α) (b : Bytes) : Except ε α := (d.run b).map Prod.fst

/-! ### Reading back an encoding -/

variable {a : α} {b : Bytes}

@[simp]
theorem pure_run : (pure a : Decoder ε α).run b = .ok (a, b) := rfl

variable {d : Decoder ε α}

variable {f : α → Decoder ε β}

@[simp]
theorem bind_run :
    (d >>= f).run b = d.run b >>= fun p => (f p.1).run p.2 := rfl

variable {e : ε}

@[simp]
theorem fail_run : (fail e : Decoder ε α).run b = .error e := rfl

@[simp]
theorem lift_run {x : Except ε α} :
    (lift x).run b = x.map fun a => (a, b) := rfl

theorem lift_run_ok {x : Except ε α} (h : x = .ok a) (b : Bytes) :
    (lift x).run b = .ok (a, b) := by
  rw [lift_run, h]
  rfl

variable {n : ℕ}

theorem take_run {rest : Bytes} (h : b.length = n) :
    (take e n).run (b ++ rest) = .ok (b, rest) := by
  simp [take, front_append h, back_append h, h]

@[simp]
theorem array_run (a : BytesN n) (rest : Bytes) :
    (array e n).run (a.val ++ rest) = .ok (a, rest) := by
  obtain ⟨b, hb⟩ := a
  simp [array, front_append hb, back_append hb, hb]

@[simp]
theorem magic_run (m rest : Bytes) : (magic e m).run (m ++ rest) = .ok ((), rest) := by
  simp [magic, take_run, failIf, Except.map]

@[simp]
theorem u8_run (x : UInt8) (rest : Bytes) : (u8 e).run (x :: rest) = .ok (x, rest) := rfl

@[simp]
theorem u16_run (x : UInt16) (rest : Bytes) :
    (u16 e).run (be16 x ++ rest) = .ok (x, rest) := by
  have h := array_run (e := e) ⟨be16 x, be16_length x⟩ rest
  simp [u16, h, ofBe_be16]

@[simp]
theorem u32_run (x : UInt32) (rest : Bytes) :
    (u32 e).run (be32 x ++ rest) = .ok (x, rest) := by
  have h := array_run (e := e) ⟨be32 x, be32_length x⟩ rest
  simp [u32, h, ofBe_be32]

@[simp]
theorem u64_run (x : UInt64) (rest : Bytes) :
    (u64 e).run (be64 x ++ rest) = .ok (x, rest) := by
  have h := array_run (e := e) ⟨be64 x, be64_length x⟩ rest
  simp [u64, h, ofBe_be64]

theorem take_run_end (h : b.length = n) :
    (take e n).run b = .ok (b, []) := by
  have hrun : (take e n).run (b ++ []) = .ok (b, []) := take_run h
  rwa [List.append_nil] at hrun

@[simp]
theorem array_run_end (a : BytesN n) : (array e n).run a.val = .ok (a, []) := by
  simpa using array_run (e := e) a []

@[simp]
theorem u32_run_end (x : UInt32) : (u32 e).run (be32 x) = .ok (x, []) := by
  simpa using u32_run (e := e) x []

@[simp]
theorem u64_run_end (x : UInt64) : (u64 e).run (be64 x) = .ok (x, []) := by
  simpa using u64_run (e := e) x []

@[simp]
theorem finish_run : (finish e).run [] = .ok ((), []) := by simp [finish]

theorem decode_eq_ok_of_run {rest : Bytes} (h : d.run b = .ok (a, rest)) : d.decode b = .ok a := by
  simp [decode, h, Except.map]

variable {l : List α}

theorem many_run_of_mapM {ε' : Type} {d : Decoder ε β} {f : α → Except ε' Bytes} {g : α → β}
    {bs : List Bytes} (hl : l.mapM f = .ok bs)
    (h : ∀ a ∈ l, ∀ b rest, f a = .ok b → d.run (b ++ rest) = .ok (g a, rest)) (rest : Bytes) :
    (many l.length d).run (bs.flatten ++ rest) = .ok (l.map g, rest) := by
  rw [mapM_eq_ok] at hl
  induction hl with
  | nil => simp [many]
  | @cons x b xs bs hx _ ih =>
    have hx' := h x List.mem_cons_self b (bs.flatten ++ rest) hx
    rw [List.length_cons, List.flatten_cons, List.append_assoc, many, bind_run, hx', ok_bind,
      bind_run, ih fun a ha => h a (List.mem_cons_of_mem x ha), ok_bind, pure_run, List.map_cons]

theorem many_run {f : α → Bytes} (h : ∀ x ∈ l, ∀ rest, d.run (f x ++ rest) = .ok (x, rest))
    (rest : Bytes) :
    (many l.length d).run ((l.map f).flatten ++ rest) = .ok (l, rest) := by
  have hl : l.mapM (fun x => (.ok (f x) : Except Unit Bytes)) = .ok (l.map f) :=
    mapM_ok_of_forall fun _ _ => rfl
  have hrun := many_run_of_mapM (g := id) hl (d := d) (fun a ha b rest hb => by
    rw [← Except.ok.inj hb]
    exact h a ha rest) rest
  rwa [List.map_id] at hrun

/-! ### Facts about every result -/

/-- Every value that the decoder returns satisfies `p`. -/
def Returns (d : Decoder ε α) (p : α → Prop) : Prop := ∀ b a rest, d.run b = .ok (a, rest) → p a

theorem Returns.pure {p : α → Prop} (h : p a) : (Pure.pure a : Decoder ε α).Returns p := by
  intro b a' rest hrun
  rw [pure_run] at hrun
  have heq := Except.ok.inj hrun
  have ha : a = a' := congrArg Prod.fst heq
  rw [← ha]
  exact h

theorem Returns.bind {p : β → Prop} (h : ∀ a, (f a).Returns p) :
    (d >>= f).Returns p := by
  intro b c rest hrun
  rw [bind_run, bind_eq_ok] at hrun
  obtain ⟨q, -, hq⟩ := hrun
  exact h q.1 q.2 c rest hq

theorem Returns.decode {p : α → Prop} (h : d.Returns p) (hd : d.decode b = .ok a) : p a := by
  unfold Decoder.decode at hd
  obtain ⟨q, hq, rfl⟩ := map_eq_ok.mp hd
  exact h b q.1 q.2 hq

/-! ### Fallible encoders -/

/-- The decoder `d` reads back, in front of any rest, what the encoder `f` wrote. -/
def Inverts {ε' : Type} (d : Decoder ε α) (f : α → Except ε' Bytes) : Prop :=
  ∀ x b rest, f x = .ok b → d.run (b ++ rest) = .ok (x, rest)

theorem Inverts.many {ε' : Type} {f : α → Except ε' Bytes} (h : d.Inverts f) {bs : List Bytes}
    (hl : l.mapM f = .ok bs) (rest : Bytes) :
    (many l.length d).run (bs.flatten ++ rest) = .ok (l, rest) := by
  have hrun := many_run_of_mapM (g := id) hl (fun a _ b rest hb => h a b rest hb) rest
  rwa [List.map_id] at hrun

end Decoder

end Wire
