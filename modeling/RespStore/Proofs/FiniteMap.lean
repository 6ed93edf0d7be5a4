import Mathlib.Data.Finmap

/-!
# RespStore.Proofs.FiniteMap

Finite maps as what stores and tables stand for: what a lookup finds after one key was written or
removed, and how many keys there are then.
-/

namespace RespStore

/-- A finite map. -/
abbrev FiniteMap (κ β : Type) := Finmap fun _ : κ => β

namespace FiniteMap

variable {κ β : Type} [DecidableEq κ] {m : FiniteMap κ β} {key : κ}

theorem keys_insert (m : FiniteMap κ β) (key : κ) (value : β) :
    (m.insert key value).keys = insert key m.keys := by
  ext k
  simp [Finmap.mem_keys]

theorem keys_insert_of_mem (h : key ∈ m) (value : β) : (m.insert key value).keys = m.keys := by
  rw [keys_insert, Finset.insert_eq_of_mem (Finmap.mem_keys.2 h)]

theorem card_keys_insert (h : key ∉ m) (value : β) :
    (m.insert key value).keys.card = m.keys.card + 1 := by
  rw [keys_insert, Finset.card_insert_of_notMem (mt Finmap.mem_keys.1 h)]

theorem card_keys_erase (h : key ∈ m) : (m.erase key).keys.card + 1 = m.keys.card := by
  rw [Finmap.keys_erase, Finset.card_erase_add_one (Finmap.mem_keys.2 h)]

theorem lookup_insert_eq_ite (m : FiniteMap κ β) (key : κ) (value : β) (k : κ) :
    (m.insert key value).lookup k = if k = key then some value else m.lookup k := by
  by_cases h : k = key
  · rw [if_pos h, h, Finmap.lookup_insert]
  · rw [if_neg h, Finmap.lookup_insert_of_ne _ h]

theorem lookup_erase_eq_ite (m : FiniteMap κ β) (key k : κ) :
    (m.erase key).lookup k = if k = key then none else m.lookup k := by
  by_cases h : k = key
  · rw [if_pos h, h, Finmap.lookup_erase]
  · rw [if_neg h, Finmap.lookup_erase_ne h]

theorem erase_of_notMem (h : key ∉ m) : m.erase key = m := by
  refine Finmap.ext_lookup ?_
  intro k
  rw [lookup_erase_eq_ite]
  split
  · next hk => rw [hk, Finmap.lookup_eq_none.2 h]
  · rfl

/-- A map without keys is empty. -/
theorem card_keys_eq_zero_iff : m.keys.card = 0 ↔ m = ∅ := by
  rw [Finset.card_eq_zero]
  constructor
  · intro h
    refine Finmap.ext_lookup ?_
    intro key
    rw [Finmap.lookup_empty, Finmap.lookup_eq_none, ← Finmap.mem_keys, h]
    exact Finset.notMem_empty key
  · intro heq
    subst heq
    exact Finmap.keys_empty

end FiniteMap
end RespStore
