import Mathlib.Data.List.Sort

/-!
# Tables

A table is a list of records with distinct keys, in the order of their keys. A record replaces the
one with its key by leaving that one out, adding the new one at the end and sorting. As a map from
keys to records, a table changes at one key only (`lookup_put`, `lookup_drop`).
-/

namespace Table

variable {ρ κ : Type} [LinearOrder κ] (key : ρ → κ)

/-- The records are strictly sorted by their keys. -/
def Strict (l : List ρ) : Prop := l.Pairwise fun a b => key a < key b

def lookup (l : List ρ) (k : κ) : Option ρ := l.find? fun r => key r = k

def drop (k : κ) (l : List ρ) : List ρ := l.filter fun r => key r ≠ k

def put (r : ρ) (l : List ρ) : List ρ :=
  List.insertionSort (fun a b => key a ≤ key b) (drop key (key r) l ++ [r])

variable {key} {l : List ρ} {r : ρ} {k k' : κ}

theorem Strict.keys_ne (h : Strict key l) : l.Pairwise fun a b => key a ≠ key b :=
  h.imp fun hlt => hlt.ne

theorem mem_drop : r ∈ drop key k l ↔ r ∈ l ∧ key r ≠ k := by
  unfold drop
  rw [List.mem_filter, decide_eq_true_eq]

theorem mem_put {a : ρ} : a ∈ put key r l ↔ a = r ∨ a ∈ l ∧ key a ≠ key r := by
  unfold put
  rw [List.mem_insertionSort, List.mem_append, List.mem_singleton, mem_drop, or_comm]

theorem lookup_eq_some (h : l.Pairwise fun a b => key a ≠ key b) :
    lookup key l k = some r ↔ r ∈ l ∧ key r = k := by
  unfold lookup
  constructor
  · intro hfound
    exact ⟨List.mem_of_find?_eq_some hfound, by simpa using List.find?_some hfound⟩
  · rintro ⟨hmem, hkey⟩
    induction l with
    | nil => cases hmem
    | cons a l ih =>
      obtain ⟨hhead, htail⟩ := List.pairwise_cons.mp h
      rcases List.mem_cons.mp hmem with rfl | hrest
      · exact List.find?_cons_of_pos (decide_eq_true hkey)
      · have hne : key a ≠ k := by
          rw [← hkey]
          exact hhead r hrest
        rw [List.find?_cons_of_neg (by simpa using hne)]
        exact ih htail hrest

theorem Strict.drop (h : Strict key l) (k : κ) : Strict key (drop key k l) :=
  List.Pairwise.sublist List.filter_sublist h

theorem Strict.put (h : Strict key l) (r : ρ) : Strict key (put key r l) := by
  -- the keys are distinct before the sorting, and so they are after it
  have hne : (Table.drop key (key r) l ++ [r]).Pairwise fun a b => key a ≠ key b := by
    rw [List.pairwise_append]
    refine ⟨(h.drop (key r)).keys_ne, List.pairwise_singleton _ _, ?_⟩
    intro a ha b hb
    rw [List.mem_singleton.mp hb]
    exact (mem_drop.mp ha).2
  have hsorted := List.pairwise_insertionSort (fun a b => key a ≤ key b)
    (Table.drop key (key r) l ++ [r])
  have hdistinct := (List.perm_insertionSort (fun a b => key a ≤ key b)
    (Table.drop key (key r) l ++ [r])).symm.pairwise hne fun hab => hab.symm
  exact (hsorted.and hdistinct).imp fun hab => lt_of_le_of_ne hab.1 hab.2

theorem Strict.lookup_drop (h : Strict key l) :
    lookup key (Table.drop key k l) k' = if k' = k then none else lookup key l k' := by
  refine Option.ext fun a => ?_
  rw [lookup_eq_some (h.drop k).keys_ne, mem_drop]
  split
  · next heq =>
    simp only [reduceCtorEq, iff_false]
    intro ha
    exact ha.1.2 (ha.2.trans heq)
  · next hne =>
    rw [lookup_eq_some h.keys_ne]
    constructor
    · intro ha
      exact ⟨ha.1.1, ha.2⟩
    · intro ha
      exact ⟨⟨ha.1, fun heq => hne (ha.2.symm.trans heq)⟩, ha.2⟩

theorem Strict.lookup_put (h : Strict key l) :
    lookup key (Table.put key r l) k = if k = key r then some r else lookup key l k := by
  refine Option.ext fun a => ?_
  rw [lookup_eq_some (h.put r).keys_ne, mem_put]
  split
  · next heq =>
    rw [Option.some.injEq]
    constructor
    · intro ha
      rcases ha.1 with rfl | hother
      · rfl
      · exact absurd (ha.2.trans heq) hother.2
    · intro ha
      exact ⟨.inl ha.symm, by rw [← ha, heq]⟩
  · next hne =>
    rw [lookup_eq_some h.keys_ne]
    constructor
    · intro ha
      rcases ha.1 with rfl | hother
      · exact absurd ha.2.symm hne
      · exact ⟨hother.1, ha.2⟩
    · intro ha
      exact ⟨.inr ⟨ha.1, fun heq => hne (ha.2.symm.trans heq)⟩, ha.2⟩

theorem Strict.find?_and (h : Strict key l) (p : ρ → Bool) :
    l.find? (fun r => decide (key r = k) && p r) = (lookup key l k).filter p := by
  refine Option.ext fun a => ?_
  rw [Option.filter_eq_some_iff, lookup_eq_some h.keys_ne]
  constructor
  · intro hfound
    have hprop := List.find?_some hfound
    rw [Bool.and_eq_true, decide_eq_true_eq] at hprop
    exact ⟨⟨List.mem_of_find?_eq_some hfound, hprop.1⟩, hprop.2⟩
  · rintro ⟨⟨hmem, hkey⟩, hprop⟩
    cases hfound : l.find? fun r => decide (key r = k) && p r with
    | none =>
      rw [List.find?_eq_none] at hfound
      refine absurd ?_ (hfound a hmem)
      rw [Bool.and_eq_true, decide_eq_true_eq]
      exact ⟨hkey, hprop⟩
    | some b =>
      have hb := List.find?_some hfound
      rw [Bool.and_eq_true, decide_eq_true_eq] at hb
      have hsame : lookup key l k = some b :=
        (lookup_eq_some h.keys_ne).mpr ⟨List.mem_of_find?_eq_some hfound, hb.1⟩
      rw [(lookup_eq_some h.keys_ne).mpr ⟨hmem, hkey⟩] at hsame
      exact hsame.symm

end Table
