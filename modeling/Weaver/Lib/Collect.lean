import Mathlib.Data.List.Nodup
import Weaver.Lib.Checked

/-!
# Checked collections

A validator reads a list entry by entry, checks each one, and files it under a key that no earlier
entry may have: `if map.insert(key, value).is_some() { return Err(duplicate) }`. `collect` is that
loop, over the list of what it has filed so far. `collect_eq_ok` states it without the accumulator:
the loop succeeds when every entry passes its check and the keys of the results are distinct, so
that neither the order of the entries nor the early returns matter to whether it succeeds.

A hash map built this way is the list of its values with their keys distinct, and `lookup` finds
the one value with a given key.
-/

namespace Collect

open Checked

variable {α β κ ε : Type} [DecidableEq κ]

/-! ## Pairs of lists -/

variable {l : List α}

theorem exists_of_mem_left {R : α → β → Prop} {m : List β} (h : l.Forall₂ R m) {a : α}
    (ha : a ∈ l) : ∃ b ∈ m, R a b := by
  induction h with
  | nil => simp at ha
  | cons hab _ ih =>
    rcases List.mem_cons.mp ha with rfl | ha'
    · exact ⟨_, List.mem_cons_self, hab⟩
    · obtain ⟨b, hb, hr⟩ := ih ha'
      exact ⟨b, List.mem_cons_of_mem _ hb, hr⟩

theorem exists_of_mem_right {R : α → β → Prop} {m : List β} (h : l.Forall₂ R m) {b : β}
    (hb : b ∈ m) : ∃ a ∈ l, R a b := by
  obtain ⟨a, ha, hr⟩ := exists_of_mem_left h.flip hb
  exact ⟨a, ha, hr⟩

theorem exists_forall₂ {R : α → β → Prop} (h : ∀ a ∈ l, ∃ b, R a b) :
    ∃ m, l.Forall₂ R m := by
  induction l with
  | nil => exact ⟨[], .nil⟩
  | cons a rest ih =>
    obtain ⟨b, hb⟩ := h a List.mem_cons_self
    obtain ⟨m, hm⟩ := ih fun a' ha' => h a' (List.mem_cons_of_mem a ha')
    exact ⟨b :: m, .cons hb hm⟩

theorem findSome_eq_some {f : α → Option β} {b : β} (hall : ∀ a ∈ l, f a = none ∨ f a = some b)
    (hsome : ∃ a ∈ l, f a = some b) :
    l.findSome? f = some b := by
  induction l with
  | nil =>
    obtain ⟨a, ha, -⟩ := hsome
    cases ha
  | cons a rest ih =>
    rw [List.findSome?_cons]
    rcases hall a List.mem_cons_self with hnone | hb
    · rw [hnone]
      obtain ⟨a', ha', hfa'⟩ := hsome
      rcases List.mem_cons.mp ha' with rfl | hrest
      · rw [hnone] at hfa'
        cases hfa'
      · exact ih (fun x hx => hall x (List.mem_cons_of_mem a hx)) ⟨a', hrest, hfa'⟩
    · rw [hb]

/-! ## The loop -/

/-- The loop, with the values `acc` filed before: each entry is checked by `f` and filed under its
key, and a key that is taken is the error `dup`. -/
def collectFrom (f : α → Except ε β) (key : β → κ) (dup : ε) : List β → List α → Except ε (List β)
  | acc, [] => .ok acc
  | acc, a :: rest => do
    let b ← f a
    failIf (key b ∈ acc.map key) dup
    collectFrom f key dup (acc ++ [b]) rest

def collect (f : α → Except ε β) (key : β → κ) (dup : ε) (l : List α) : Except ε (List β) :=
  collectFrom f key dup [] l

variable {f : α → Except ε β} {key : β → κ} {dup : ε} {out : List β}

theorem collectFrom_eq_ok {acc : List β} (hacc : (acc.map key).Nodup) :
    collectFrom f key dup acc l = .ok out ↔
      ∃ bs, l.Forall₂ (fun a b => f a = .ok b) bs ∧ out = acc ++ bs ∧ (out.map key).Nodup := by
  induction l generalizing acc with
  | nil =>
    constructor
    · intro h
      obtain rfl : acc = out := by simpa [collectFrom] using h
      exact ⟨[], .nil, by simp, hacc⟩
    · rintro ⟨bs, hbs, rfl, -⟩
      simp [collectFrom, List.forall₂_nil_left_iff.mp hbs]
  | cons a rest ih =>
    simp only [collectFrom, bind_eq_ok, failIf_eq_ok]
    constructor
    · rintro ⟨b, hb, -, hfresh, h⟩
      have hacc' : ((acc ++ [b]).map key).Nodup := by
        rw [List.map_append, List.nodup_append]
        refine ⟨hacc, by simp, ?_⟩
        rintro x hx y hy rfl
        simp only [List.map_cons, List.map_nil, List.mem_singleton] at hy
        exact hfresh (hy ▸ hx)
      obtain ⟨bs, hbs, rfl, hnd⟩ := (ih hacc').mp h
      exact ⟨b :: bs, .cons hb hbs, by simp, hnd⟩
    · rintro ⟨bs, hbs, rfl, hnd⟩
      obtain ⟨b, bs', hb, hbs', rfl⟩ := List.forall₂_cons_left_iff.mp hbs
      -- `b` stands right after `acc` in the result, whose keys are distinct
      have hsplit : acc ++ b :: bs' = (acc ++ [b]) ++ bs' := by simp
      have hacc' : ((acc ++ [b]).map key).Nodup := by
        rw [hsplit, List.map_append] at hnd
        exact hnd.of_append_left
      have hfresh : key b ∉ acc.map key := by
        rw [List.map_append, List.nodup_append] at hacc'
        intro hmem
        exact hacc'.2.2 _ hmem _ (by simp) rfl
      exact ⟨b, hb, (), hfresh, (ih hacc').mpr ⟨bs', hbs', hsplit, hnd⟩⟩

theorem collect_eq_ok :
    collect f key dup l = .ok out ↔
      l.Forall₂ (fun a b => f a = .ok b) out ∧ (out.map key).Nodup := by
  rw [collect, collectFrom_eq_ok (by simp)]
  constructor
  · rintro ⟨bs, hbs, rfl, hnd⟩
    exact ⟨hbs, hnd⟩
  · rintro ⟨hbs, hnd⟩
    exact ⟨out, hbs, rfl, hnd⟩

theorem mem_of_collect (h : collect f key dup l = .ok out) {b : β} :
    b ∈ out ↔ ∃ a ∈ l, f a = .ok b := by
  obtain ⟨hall, -⟩ := collect_eq_ok.mp h
  constructor
  · intro hb
    exact exists_of_mem_right hall hb
  · rintro ⟨a, ha, hab⟩
    obtain ⟨b', hb', hab'⟩ := exists_of_mem_left hall ha
    rw [hab] at hab'
    rwa [Except.ok.inj hab']

/-- The values at two places of the list have distinct keys. -/
def DistinctOn {γ : Type} (f : α → Except ε γ) (key : γ → κ) (l : List α) : Prop :=
  l.Pairwise fun x y => ∀ a b, f x = .ok a → f y = .ok b → key a ≠ key b

omit [DecidableEq κ] in
theorem DistinctOn.eq_of_key {γ : Type} {f : α → Except ε γ} {key : γ → κ} (h : DistinctOn f key l)
    {x y : α} (hx : x ∈ l) (hy : y ∈ l) {a b : γ} (ha : f x = .ok a) (hb : f y = .ok b)
    (hkey : key a = key b) : x = y := by
  unfold DistinctOn at h
  induction l with
  | nil => cases hx
  | cons z rest ih =>
    obtain ⟨hfirst, hrest⟩ := List.pairwise_cons.mp h
    rcases List.mem_cons.mp hx with rfl | hx' <;> rcases List.mem_cons.mp hy with rfl | hy'
    · rfl
    · exact absurd hkey (hfirst y hy' a b ha hb)
    · exact absurd hkey.symm (hfirst x hx' b a hb ha)
    · exact ih hrest hx' hy'

theorem DistinctOn.find?_eq_some {γ : Type} {f : α → Except ε γ} {key : γ → κ}
    (h : DistinctOn f key l) {k : κ} {p : γ → Bool} {c : γ} :
    ((l.filterMap fun a => (f a).toOption).find? fun c => decide (key c = k) && p c) = some c ↔
      (∃ a ∈ l, f a = .ok c) ∧ key c = k ∧ p c = true := by
  have hmem : ∀ c, c ∈ (l.filterMap fun a => (f a).toOption) ↔ ∃ a ∈ l, f a = .ok c := by
    intro c
    simp only [List.mem_filterMap, toOption_eq_some]
  constructor
  · intro hfind
    have hp := List.find?_some hfind
    rw [Bool.and_eq_true, decide_eq_true_iff] at hp
    exact ⟨(hmem c).mp (List.mem_of_find?_eq_some hfind), hp⟩
  · rintro ⟨⟨a, ha, hac⟩, hkey, hp⟩
    have hsome : ((l.filterMap fun a => (f a).toOption).find? fun c =>
        decide (key c = k) && p c).isSome := by
      rw [List.find?_isSome]
      exact ⟨c, (hmem c).mpr ⟨a, ha, hac⟩, by simp [hkey, hp]⟩
    obtain ⟨c', hfind⟩ := Option.isSome_iff_exists.mp hsome
    have hp' := List.find?_some hfind
    rw [Bool.and_eq_true, decide_eq_true_iff] at hp'
    obtain ⟨a', ha', hac'⟩ := (hmem c').mp (List.mem_of_find?_eq_some hfind)
    -- the keys agree, so what was found is the entry
    obtain rfl := h.eq_of_key ha ha' hac hac' (hkey.trans hp'.1.symm)
    rw [hac] at hac'
    rw [hfind, Except.ok.inj hac']

omit [DecidableEq κ] in
theorem nodup_iff_distinctOn (h : l.Forall₂ (fun a b => f a = .ok b) out) :
    (out.map key).Nodup ↔ DistinctOn f key l := by
  unfold DistinctOn
  induction h with
  | nil => simp
  | @cons a b l out hab hrest ih =>
    rw [List.map_cons, List.nodup_cons, List.pairwise_cons, ih]
    refine and_congr_left fun _ => ?_
    constructor
    · intro hfresh y hy a' b' ha' hb' hkey
      obtain ⟨b'', hmem, hb''⟩ := exists_of_mem_left hrest hy
      rw [hb'] at hb''
      rw [hab] at ha'
      obtain rfl := Except.ok.inj ha'
      obtain rfl := Except.ok.inj hb''
      exact hfresh (List.mem_map.mpr ⟨b', hmem, hkey.symm⟩)
    · intro hfresh hmem
      obtain ⟨b', hb', hkey⟩ := List.mem_map.mp hmem
      obtain ⟨y, hy, hyb⟩ := exists_of_mem_right hrest hb'
      exact hfresh y hy b b' hab hyb hkey.symm

omit [DecidableEq κ] in
theorem distinctOn_congr {γ ε' : Type} {g : α → Except ε' γ} {kf : β → κ} {kg : γ → κ}
    (h : ∀ x ∈ l, ∃ b c, f x = .ok b ∧ g x = .ok c ∧ kf b = kg c) :
    DistinctOn f kf l ↔ DistinctOn g kg l := by
  unfold DistinctOn
  refine List.Pairwise.iff_of_mem fun {x y} hx hy => ?_
  obtain ⟨b, c, hb, hc, hbc⟩ := h x hx
  obtain ⟨b', c', hb', hc', hbc'⟩ := h y hy
  constructor
  · intro hd a a' ha ha' hkey
    rw [hc] at ha
    rw [hc'] at ha'
    obtain rfl := Except.ok.inj ha
    obtain rfl := Except.ok.inj ha'
    exact hd b b' hb hb' (by rw [hbc, hbc', hkey])
  · intro hd a a' ha ha' hkey
    rw [hb] at ha
    rw [hb'] at ha'
    obtain rfl := Except.ok.inj ha
    obtain rfl := Except.ok.inj ha'
    exact hd c c' hc hc' (by rw [← hbc, ← hbc', hkey])

theorem exists_collect_eq_ok :
    (∃ out, collect f key dup l = .ok out) ↔
      (∀ a ∈ l, ∃ b, f a = .ok b) ∧ DistinctOn f key l := by
  constructor
  · rintro ⟨out, h⟩
    obtain ⟨hall, hnd⟩ := collect_eq_ok.mp h
    refine ⟨fun a ha => ?_, (nodup_iff_distinctOn hall).mp hnd⟩
    obtain ⟨b, -, hb⟩ := exists_of_mem_left hall ha
    exact ⟨b, hb⟩
  · rintro ⟨hall, hd⟩
    obtain ⟨out, hout⟩ := exists_forall₂ hall
    exact ⟨out, collect_eq_ok.mpr ⟨hout, (nodup_iff_distinctOn hout).mpr hd⟩⟩

theorem exists_collect_self_eq_ok {f : α → Except ε α} {key : α → κ} {p : α → Prop}
    (hf : ∀ a b, f a = .ok b ↔ p a ∧ b = a) :
    (∃ out, collect f key dup l = .ok out) ↔ (∀ a ∈ l, p a) ∧ (l.map key).Nodup := by
  have hself : (∀ a ∈ l, p a) → l.Forall₂ (fun a b => f a = .ok b) l := by
    intro hall
    rw [List.forall₂_same]
    exact fun a ha => (hf a a).mpr ⟨hall a ha, rfl⟩
  constructor
  · rintro ⟨out, h⟩
    obtain ⟨hall, -⟩ := exists_collect_eq_ok.mp ⟨out, h⟩
    have hp : ∀ a ∈ l, p a := by
      intro a ha
      obtain ⟨b, hb⟩ := hall a ha
      exact ((hf a b).mp hb).1
    refine ⟨hp, ?_⟩
    rw [nodup_iff_distinctOn (hself hp)]
    exact (exists_collect_eq_ok.mp ⟨out, h⟩).2
  · rintro ⟨hp, hnd⟩
    exact ⟨l, collect_eq_ok.mpr ⟨hself hp, hnd⟩⟩

/-! ## Lookup -/

/-- `map.get(k)`, on the list of a map's values. -/
def lookup (key : β → κ) (k : κ) (l : List β) : Option β := l.find? fun b => key b = k

theorem lookup_some {k : κ} {l : List β} {b : β} (h : lookup key k l = some b) :
    b ∈ l ∧ key b = k :=
  ⟨List.mem_of_find?_eq_some h, by simpa using List.find?_some h⟩

theorem lookup_eq_some {k : κ} {l : List β} (hl : (l.map key).Nodup) {b : β} :
    lookup key k l = some b ↔ b ∈ l ∧ key b = k := by
  refine ⟨lookup_some, ?_⟩
  rintro ⟨hb, rfl⟩
  induction l with
  | nil => simp at hb
  | cons c rest ih =>
    rw [List.map_cons, List.nodup_cons] at hl
    rcases List.mem_cons.mp hb with rfl | hb'
    · simp [lookup]
    · have hne : key c ≠ key b := fun h => hl.1 (h ▸ List.mem_map_of_mem hb')
      have := ih hl.2 hb'
      simpa [lookup, hne] using this

/-! ## Removing one entry -/

theorem eraseIdx_eq_filter {p : α → Bool} {i : ℕ} (hi : l.findIdx? p = some i)
    (hone : l.Pairwise fun a b => p a = true → p b = true → False) :
    l.eraseIdx i = l.filter fun a => !p a := by
  induction l generalizing i with
  | nil => cases hi
  | cons a rest ih =>
    obtain ⟨hfirst, hrest⟩ := List.pairwise_cons.mp hone
    rw [List.findIdx?_cons] at hi
    split at hi
    · next ha =>
      obtain rfl := Option.some.inj hi
      have hkeep : rest.filter (fun a => !p a) = rest := by
        rw [List.filter_eq_self]
        intro b hb
        rw [Bool.not_eq_true', Bool.eq_false_iff]
        exact hfirst b hb ha
      rw [List.eraseIdx_cons_zero, List.filter_cons_of_neg (by simp [ha]), hkeep]
    · next ha =>
      rw [Option.map_eq_some_iff] at hi
      obtain ⟨j, hj, rfl⟩ := hi
      rw [List.eraseIdx_cons_succ, List.filter_cons_of_pos (by simp [ha]), ih hj hrest]

theorem cons_filter_perm {p : α → Bool} {a : α} (ha : a ∈ l) (hpa : p a = true)
    (hone : l.Pairwise fun a b => p a = true → p b = true → False) :
    (a :: l.filter fun b => !p b).Perm l := by
  have hsingle : l.filter p = [a] := by
    induction l with
    | nil => cases ha
    | cons b rest ih =>
      obtain ⟨hfirst, hrest⟩ := List.pairwise_cons.mp hone
      rcases List.mem_cons.mp ha with rfl | ha'
      · have hnone : rest.filter p = [] := by
          rw [List.filter_eq_nil_iff]
          intro b hb hpb
          exact hfirst b hb hpa hpb
        rw [List.filter_cons_of_pos hpa, hnone]
      · have hb : ¬ p b = true := fun hpb => hfirst a ha' hpb hpa
        rw [List.filter_cons_of_neg hb, ih ha' hrest]
  have hperm := List.filter_append_perm p l
  rw [hsingle] at hperm
  exact hperm

end Collect
