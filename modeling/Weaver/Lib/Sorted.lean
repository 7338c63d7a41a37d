import Mathlib.Data.List.Lex
import Mathlib.Order.Hom.Basic

/-!
# Sorted maps

A map over ordered keys that is iterated in the order of its keys, as the list of its entries. An
operation on it is a single pass over the entries.

An order embedding of the keys, together with any function of the values, carries a map to a map
(`Map.map`), and the operations commute with it (`map_insert`, `map_erase`, `get_map`).
-/

namespace Sorted

variable {κ μ ν ξ : Type} [LinearOrder κ] [LinearOrder μ]

/-! ## Order of lists -/

theorem append_lt_append_iff {a b x y : List κ} (h : a.length = b.length) :
    a ++ x < b ++ y ↔ a < b ∨ a = b ∧ x < y := by
  induction a generalizing b with
  | nil =>
    obtain rfl : b = [] := List.eq_nil_of_length_eq_zero h.symm
    simp
  | cons c a ih =>
    cases b with
    | nil => cases h
    | cons d b =>
      have hrest := ih (Nat.succ.inj h)
      rw [List.cons_append, List.cons_append, List.cons_lt_cons_iff, List.cons_lt_cons_iff, hrest,
        List.cons.injEq]
      tauto

/-! ## Entries -/

def lookup (k : κ) : List (κ × ν) → Option ν
  | [] => none
  | e :: rest => if e.1 = k then some e.2 else lookup k rest

/-- The entries with a value under a key, in the order of the keys. -/
def insertEntry (k : κ) (v : ν) : List (κ × ν) → List (κ × ν)
  | [] => [(k, v)]
  | e :: rest =>
    if k < e.1 then (k, v) :: e :: rest
    else if e.1 = k then (k, v) :: rest
    else e :: insertEntry k v rest

def Ordered (l : List (κ × ν)) : Prop := l.Pairwise fun a b => a.1 < b.1

theorem mem_insertEntry {k : κ} {v : ν} {l : List (κ × ν)} {e : κ × ν}
    (h : e ∈ insertEntry k v l) : e = (k, v) ∨ e ∈ l := by
  induction l with
  | nil => exact .inl (List.mem_singleton.mp h)
  | cons e' rest ih =>
    rw [insertEntry] at h
    split_ifs at h with hlt heq
    · exact List.mem_cons.mp h
    · rcases List.mem_cons.mp h with h | h
      · exact .inl h
      · exact .inr (List.mem_cons_of_mem _ h)
    · rcases List.mem_cons.mp h with h | h
      · exact .inr (h ▸ List.mem_cons_self)
      · exact (ih h).imp_right (List.mem_cons_of_mem _)

theorem Ordered.insertEntry {l : List (κ × ν)} (h : Ordered l) (k : κ) (v : ν) :
    Ordered (insertEntry k v l) := by
  induction l with
  | nil => exact List.pairwise_singleton _ _
  | cons e rest ih =>
    obtain ⟨hfirst, hrest⟩ := List.pairwise_cons.mp h
    rw [Sorted.insertEntry]
    split_ifs with hlt heq
    · refine List.pairwise_cons.mpr ⟨?_, h⟩
      intro e' he'
      rcases List.mem_cons.mp he' with rfl | he'
      · exact hlt
      · exact hlt.trans (hfirst e' he')
    · rw [heq] at hfirst
      exact List.pairwise_cons.mpr ⟨hfirst, hrest⟩
    · refine List.pairwise_cons.mpr ⟨?_, ih hrest⟩
      intro e' he'
      rcases mem_insertEntry he' with rfl | he'
      · exact lt_of_le_of_ne (not_lt.mp hlt) heq
      · exact hfirst e' he'

theorem lookup_insertEntry (k k' : κ) (v : ν) (l : List (κ × ν)) :
    lookup k' (insertEntry k v l) = if k = k' then some v else lookup k' l := by
  induction l with
  | nil => rfl
  | cons e rest ih =>
    rw [insertEntry]
    by_cases hlt : k < e.1
    · rw [if_pos hlt]
      rfl
    rw [if_neg hlt]
    by_cases heq : e.1 = k
    · -- the entry of the key is replaced
      rw [if_pos heq, lookup, lookup, heq]
      split_ifs
      all_goals rfl
    · rw [if_neg heq, lookup, ih, lookup]
      split_ifs with h₁ h₂
      · exact absurd (h₁.trans h₂.symm) heq
      all_goals rfl

theorem lookup_filter_ne (k k' : κ) (l : List (κ × ν)) :
    lookup k' (l.filter fun e => e.1 ≠ k) = if k = k' then none else lookup k' l := by
  induction l with
  | nil => simp [lookup]
  | cons e rest ih =>
    by_cases he : e.1 = k
    · rw [List.filter_cons_of_neg (by simp [he]), ih]
      split_ifs with hk
      · rfl
      · rw [lookup, if_neg (he ▸ hk)]
    · rw [List.filter_cons_of_pos (by simp [he]), lookup, ih, lookup]
      split_ifs with h₁ h₂
      · exact absurd (h₁.trans h₂.symm) he
      all_goals rfl

/-! ## Maps -/

/-- A map, as the list of its entries in the order of the keys. -/
@[ext]
structure Map (κ ν : Type) [LinearOrder κ] where
  entries : List (κ × ν)
  ordered : Ordered entries

namespace Map

def empty : Map κ ν := ⟨[], .nil⟩

def get (m : Map κ ν) (k : κ) : Option ν := lookup k m.entries

def insert (m : Map κ ν) (k : κ) (v : ν) : Map κ ν :=
  ⟨insertEntry k v m.entries, m.ordered.insertEntry k v⟩

def erase (m : Map κ ν) (k : κ) : Map κ ν :=
  ⟨m.entries.filter fun e => e.1 ≠ k, m.ordered.filter _⟩

theorem get_insert (m : Map κ ν) (k k' : κ) (v : ν) :
    (m.insert k v).get k' = if k = k' then some v else m.get k' :=
  lookup_insertEntry k k' v m.entries

theorem get_erase (m : Map κ ν) (k k' : κ) :
    (m.erase k).get k' = if k = k' then none else m.get k' :=
  lookup_filter_ne k k' m.entries

/-! ## Encoded maps -/

def map (f : κ ↪o μ) (g : ν → ξ) (m : Map κ ν) : Map μ ξ where
  entries := m.entries.map (Prod.map f g)
  ordered := by
    refine List.pairwise_map.mpr (m.ordered.imp ?_)
    intro a b hab
    exact f.lt_iff_lt.mpr hab

theorem get_map (f : κ ↪o μ) (g : ν → ξ) (m : Map κ ν) (k : κ) :
    (m.map f g).get (f k) = (m.get k).map g := by
  obtain ⟨l, hl⟩ := m
  change lookup (f k) (l.map (Prod.map f g)) = (lookup k l).map g
  clear hl
  induction l with
  | nil => rfl
  | cons e rest ih =>
    rw [List.map_cons, lookup, lookup, ih]
    simp only [Prod.map_fst, Prod.map_snd, f.injective.eq_iff]
    split_ifs
    all_goals rfl

theorem map_insert (f : κ ↪o μ) (g : ν → ξ) (m : Map κ ν) (k : κ) (v : ν) :
    (m.insert k v).map f g = (m.map f g).insert (f k) (g v) := by
  obtain ⟨l, hl⟩ := m
  apply Map.ext
  change (insertEntry k v l).map (Prod.map f g) = insertEntry (f k) (g v) (l.map (Prod.map f g))
  clear hl
  induction l with
  | nil => rfl
  | cons e rest ih =>
    rw [List.map_cons, insertEntry, insertEntry, ← ih]
    simp only [Prod.map_fst, f.lt_iff_lt, f.injective.eq_iff]
    split_ifs
    all_goals rfl

theorem map_erase (f : κ ↪o μ) (g : ν → ξ) (m : Map κ ν) (k : κ) :
    (m.erase k).map f g = (m.map f g).erase (f k) := by
  apply Map.ext
  change (m.entries.filter fun e => e.1 ≠ k).map (Prod.map f g) =
    (m.entries.map (Prod.map f g)).filter fun e => e.1 ≠ f k
  rw [List.filter_map]
  congr 1
  refine List.filter_congr ?_
  intro e _
  simp [f.injective.eq_iff]

end Map

end Sorted
