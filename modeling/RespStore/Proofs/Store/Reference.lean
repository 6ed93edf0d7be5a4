import Mathlib.Algebra.Order.BigOperators.Group.Finset
import RespStore.Proofs.Calls
import RespStore.Proofs.FiniteMap
import RespStore.Store

/-!
# RespStore.Proofs.Store.Reference

What a store stands for. To those who call it a store is one finite map from keys to values, with a
count of the lookups and one of the writes: `Reference` is that map, and `Reference.perform` what
each call does to it and answers.

The map knows of shards in one place only. A shard has room for `Table.ceiling` keys, so whether a
new key can be stored depends on how many keys have their `home` in the same shard.
-/

namespace RespStore
namespace Store

variable {α : Type}

/-! ### Calls -/

/-- A call of a store. -/
inductive Call (α : Type)
  | set (key value : Bytes)
  | get (key : Bytes)
  /-- A lookup that hands the value to a function. -/
  | getWith (key : Bytes) (f : Bytes → α)
  | erase (key : Bytes)
  | size
  | isEmpty
  | stats

/-- What a call answers. -/
inductive Answer (α : Type)
  | stored (result : Except StoreError Stored)
  | value (value? : Option Bytes)
  | seen (seen? : Option α)
  | erased (present : Bool)
  | size (count : Nat)
  | isEmpty (empty : Bool)
  | stats (stats : StoreStats)
  deriving DecidableEq

/-- Makes a call. -/
def perform (digest : Bytes → UInt64) (s : Store) : Call α → Answer α × Store
  | .set key value =>
    let (result, s) := s.set key value digest
    (.stored result, s)
  | .get key =>
    let (value?, s) := s.get? key digest
    (.value value?, s)
  | .getWith key f =>
    let (seen?, s) := s.getWith? key f digest
    (.seen seen?, s)
  | .erase key =>
    let (present, s) := s.erase key digest
    (.erased present, s)
  | .size => (.size s.size, s)
  | .isEmpty => (.isEmpty s.isEmpty, s)
  | .stats => (.stats s.stats, s)

/-! ### Keys at home -/

end Store

namespace FiniteMap

variable {m m' : FiniteMap Bytes Bytes} {key : Bytes} {home : Bytes → Nat}

/-- The number of keys at home in a shard. -/
def population (m : FiniteMap Bytes Bytes) (home : Bytes → Nat) (shard : Nat) : Nat :=
  (m.keys.filter fun key => home key = shard).card

theorem population_congr {shard : Nat} (h : ∀ key, home key = shard → (key ∈ m ↔ key ∈ m')) :
    m.population home shard = m'.population home shard := by
  unfold population
  congr 1
  ext key
  simp only [Finset.mem_filter, Finmap.mem_keys]
  exact and_congr_left (h key)

theorem population_insert (h : key ∉ m) (value : Bytes) :
    population (m.insert key value) home (home key) = m.population home (home key) + 1 := by
  have hnot : key ∉ m.keys.filter fun k => home k = home key := by
    simp [Finmap.mem_keys, h]
  rw [population, keys_insert, Finset.filter_insert, if_pos rfl,
    Finset.card_insert_of_notMem hnot, population]

theorem population_erase (h : key ∈ m) :
    population (m.erase key) home (home key) + 1 = m.population home (home key) := by
  have hmem : key ∈ m.keys.filter fun k => home k = home key := by
    simp [Finmap.mem_keys, h]
  rw [population, Finmap.keys_erase, Finset.filter_erase, Finset.card_erase_add_one hmem,
    population]

/-- Every key is at home in one of the shards. -/
theorem sum_population {shards : Nat} (hlt : ∀ key, home key < shards) :
    ∑ shard ∈ Finset.range shards, m.population home shard = m.keys.card := by
  have hmaps : ∀ key ∈ m.keys, home key ∈ Finset.range shards :=
    fun key _ => Finset.mem_range.2 (hlt key)
  exact (Finset.card_eq_sum_card_fiberwise hmaps).symm

end FiniteMap

namespace Store

variable {α : Type}

/-! ### The reference -/

/-- One finite map, with a count of the lookups and one of the writes. -/
structure Reference where
  map : FiniteMap Bytes Bytes
  lookups : Nat
  writes : Nat

namespace Reference

/-- The empty map. -/
def empty : Reference := ⟨∅, 0, 0⟩

/-- Stores a value. A key that is present has room, and a new one if its shard has. -/
def set (r : Reference) (home : Bytes → Nat) (key value : Bytes) :
    Except StoreError Stored × Reference :=
  let map := r.map.insert key value
  let writes := r.writes + 1
  if key ∈ r.map then (.ok .updated, { r with map, writes })
  else if r.map.population home (home key) < Table.ceiling then
    (.ok .inserted, { r with map, writes })
  else (.error (.capacityExceeded Table.ceiling), { r with writes })

/-- Makes a call, where there are so many `shards`. -/
def perform (shards : Nat) (home : Bytes → Nat) (r : Reference) : Call α → Answer α × Reference
  | .set key value =>
    let (result, r) := r.set home key value
    (.stored result, r)
  | .get key => (.value (r.map.lookup key), { r with lookups := r.lookups + 1 })
  | .getWith key f => (.seen ((r.map.lookup key).map f), { r with lookups := r.lookups + 1 })
  | .erase key => (.erased (key ∈ r.map), { r with map := r.map.erase key })
  | .size => (.size r.map.keys.card, r)
  | .isEmpty => (.isEmpty (r.map = ∅), r)
  | .stats => (.stats ⟨r.map.keys.card, r.lookups, r.writes, shards⟩, r)

/-- The counts of the reference after so many calls, and with them those of a store, are too small
to leave a word. -/
structure Counted (calls : Nat) (r : Reference) : Prop where
  keys_le : r.map.keys.card ≤ r.writes
  ops_le : r.lookups + r.writes ≤ calls

/-- **A run of calls counts no more than its calls.** -/
theorem run_counted (shards : Nat) (home : Bytes → Nat) (calls : List (Call α)) :
    Counted calls.length (Calls.run (perform shards home) empty calls).2 := by
  have hempty : Counted 0 empty := ⟨by simp [empty], by simp [empty]⟩
  have hstep : ∀ n r (call : Call α), Counted n r →
      Counted (n + 1) (perform shards home r call).2 := by
    intro n r call h
    obtain ⟨hkeys, hops⟩ := h
    cases call with
    | set key value =>
      have hcard : (r.map.insert key value).keys.card ≤ r.map.keys.card + 1 := by
        rw [FiniteMap.keys_insert]
        exact Finset.card_insert_le _ _
      simp only [perform, set]
      split
      · exact ⟨by simp only; omega, by simp only; omega⟩
      · split
        · exact ⟨by simp only; omega, by simp only; omega⟩
        · exact ⟨by simp only; omega, by simp only; omega⟩
    | get key => exact ⟨hkeys, by simp only [perform]; omega⟩
    | getWith key f => exact ⟨hkeys, by simp only [perform]; omega⟩
    | erase key =>
      have hcard : (r.map.erase key).keys.card ≤ r.map.keys.card := by
        rw [Finmap.keys_erase]
        exact Finset.card_erase_le
      exact ⟨Nat.le_trans hcard hkeys, Nat.le_succ_of_le hops⟩
    | size => exact ⟨hkeys, Nat.le_succ_of_le hops⟩
    | isEmpty => exact ⟨hkeys, Nat.le_succ_of_le hops⟩
    | stats => exact ⟨hkeys, Nat.le_succ_of_le hops⟩
  simpa using Calls.run_keeps hstep hempty calls

end Reference
end Store
end RespStore
