import Mathlib.Data.List.AList

/-!
# Maps without an order

A hash map is known by what is filed under each key. `Map` is the finite map of Mathlib's `AList`;
this file adds the loops over several keys and the filter on the values, each with the lookup that
follows.
-/

namespace Hashed

abbrev Map (κ ν : Type) := AList fun _ : κ => ν

variable {κ ν : Type} [DecidableEq κ]

def retain (s : Map κ ν) (p : ν → Bool) : Map κ ν :=
  ⟨s.entries.filter fun e => p e.2, s.nodupKeys.sublist List.filter_sublist⟩

@[simp]
theorem lookup_retain (s : Map κ ν) (p : ν → Bool) (k : κ) :
    (retain s p).lookup k = (s.lookup k).filter p := by
  ext v
  have hkept : (s.entries.filter fun e => p e.2).NodupKeys := (retain s p).nodupKeys
  change v ∈ (s.entries.filter fun e => p e.2).dlookup k ↔ v ∈ (s.entries.dlookup k).filter p
  rw [List.mem_dlookup_iff hkept, Option.mem_filter_iff, List.mem_dlookup_iff s.nodupKeys,
    List.mem_filter]

omit [DecidableEq κ] in
theorem length_keys_retain (s : Map κ ν) (p : ν → Bool) :
    (retain s p).keys.length ≤ s.keys.length := by
  simp only [AList.keys, List.keys, List.length_map]
  exact List.length_filter_le _ _

/-- A map with room for a new key, if the key is new, has room for what is filed under it. -/
theorem length_keys_insert {s : Map κ ν} {n : ℕ} {k : κ} (h : s.keys.length ≤ n)
    (hroom : s.lookup k = none → s.keys.length < n) (v : ν) :
    (s.insert k v).keys.length ≤ n := by
  rw [AList.keys_insert, List.length_cons]
  by_cases hmem : k ∈ s.keys
  · have hpos := List.length_pos_of_mem hmem
    rw [List.length_erase_of_mem hmem]
    omega
  · rw [List.erase_of_not_mem hmem]
    exact hroom (AList.lookup_eq_none.mpr hmem)

def eraseAll (s : Map κ ν) (ks : List κ) : Map κ ν := ks.foldl (fun s k => s.erase k) s

theorem lookup_eraseAll (s : Map κ ν) (ks : List κ) (k : κ) :
    (eraseAll s ks).lookup k = if k ∈ ks then none else s.lookup k := by
  induction ks generalizing s with
  | nil => rfl
  | cons k' ks ih =>
    rw [eraseAll, List.foldl_cons, ← eraseAll, ih]
    by_cases hk : k = k'
    · rw [hk, AList.lookup_erase]
      simp
    · rw [AList.lookup_erase_ne hk]
      simp [hk]

def insertAll (s : Map κ ν) (ks : List κ) (v : ν) : Map κ ν := ks.foldl (fun s k => s.insert k v) s

theorem lookup_insertAll (s : Map κ ν) (ks : List κ) (v : ν) (k : κ) :
    (insertAll s ks v).lookup k = if k ∈ ks then some v else s.lookup k := by
  induction ks generalizing s with
  | nil => rfl
  | cons k' ks ih =>
    rw [insertAll, List.foldl_cons, ← insertAll, ih]
    by_cases hk : k = k'
    · rw [hk, AList.lookup_insert]
      simp
    · rw [AList.lookup_insert_ne hk]
      simp [hk]

end Hashed
