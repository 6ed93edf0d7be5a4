import RespStore.Proofs.Store.Reference
import RespStore.Proofs.Table.Erasing
import RespStore.Proofs.Table.Storing

/-!
# RespStore.Proofs.Store.Refinement

A store behaves as one finite map does, over every run of calls and for any number of shards.
Nothing is assumed of the hash function: where keys have equal hashes, or all of them do, the tables
tell them apart by their bytes.

`Represents` relates a store to the map it stands for. Its shards are well-formed tables, a lookup
in the shard of a key gives what the map has for that key, and each shard has as many entries as
the map has keys at home there, so that no shard keeps an entry that is out of reach. A call that
changes one shard keeps the relation if the map is changed at that key alone (`Represents.update`);
what a table does to a key is told by `Table.WellFormed.set_cases` and
`Table.WellFormed.erase_cases`.
-/

namespace RespStore
namespace Store

/-- The store stands for the map, and counts as the reference does. -/
structure Represents (digest : Bytes → UInt64) (shards : Nat) (home : Bytes → Nat) (s : Store)
    (r : Reference) : Prop where
  shardCount_eq : s.shardCount = shards
  shardFor_eq : ∀ key, s.shardFor key digest = home key
  home_lt : ∀ key, home key < shards
  wellFormed : ∀ shard, (s.shard shard).WellFormed
  maxCapacity : ∀ shard, (s.shard shard).maxCapacity = Table.ceiling
  peek?_eq : ∀ key, s.peek? key digest = r.map.lookup key
  size_shard : ∀ shard, (s.shard shard).size = r.map.population home shard
  keys : s.keys = r.map.keys.card
  lookups : s.lookups = r.lookups
  writes : s.writes = r.writes

variable {digest : Bytes → UInt64} {shards : Nat} {home : Bytes → Nat}
variable {s s' : Store} {r r' : Reference}

/-- Changing the table of a shard changes no other. -/
theorem shard_of_set {index : Nat} (hlt : index < s.shardCount) {t : Table}
    (h : s'.shards = s.shards.setIfInBounds index t) (shard : Nat) :
    s'.shard shard = if shard = index then t else s.shard shard := by
  simp only [Store.shard, h, Array.getD_eq_getD_getElem?]
  by_cases heq : shard = index
  · subst heq
    have hlt' : shard < s.shards.size := hlt
    simp [hlt']
  · rw [if_neg heq, Array.getElem?_setIfInBounds_ne (Ne.symm heq)]

/-- A table may be put back where it was. -/
theorem setIfInBounds_shard (s : Store) (index : Nat) :
    s.shards.setIfInBounds index (s.shard index) = s.shards := by
  refine Array.ext (by simp) ?_
  intro i hi hlt
  rw [Array.getElem_setIfInBounds]
  split
  · next heq =>
    subst heq
    simp [Store.shard, hlt]
  · rfl

theorem shard_create (count shard : Nat) : (create count).shard shard = Table.standard := by
  simp only [create, Store.shard, Array.getD_eq_getD_getElem?, Array.getElem?_replicate]
  split <;> rfl

/-- The high bits of any hash choose a shard, if there is one for each pattern of them. -/
theorem shardIndex_lt (hbits : s.bits ≤ 63) (hcount : s.shardCount = 2 ^ s.bits) (hash : UInt64) :
    s.shardIndex hash < s.shardCount := by
  have hlt : hash.toNat < 2 ^ 64 := hash.toNat_lt
  rw [hcount, shardIndex, Nat.shiftRight_eq_div_pow, Nat.div_lt_iff_lt_mul, ← Nat.pow_add]
  · rwa [Nat.add_sub_cancel' (Nat.le_succ_of_le hbits)]
  · exact Nat.two_pow_pos _

namespace Represents

/-- The table of a key gives the value that the map has for it. -/
theorem get?_eq (h : Represents digest shards home s r) (key : Bytes) :
    (s.shard (home key)).get? (digest key) key = r.map.lookup key := by
  rw [← h.peek?_eq, peek?, h.shardFor_eq]

theorem sum_sizes (h : Represents digest shards home s r) :
    ∑ shard ∈ Finset.range shards, (s.shard shard).size = r.map.keys.card := by
  rw [← FiniteMap.sum_population h.home_lt]
  exact Finset.sum_congr rfl fun shard _ => h.size_shard shard

/-- **Binding one key anew** in the table of its shard does so in the map. -/
theorem update (h : Represents digest shards home s r) {key : Bytes} {value? : Option Bytes}
    {t : Table}
    (hbinds : (s.shard (home key)).Binds (digest key) key value? t)
    (hshards : s'.shards = s.shards.setIfInBounds (home key) t) (hbits : s'.bits = s.bits)
    (hlookup : ∀ k, r'.map.lookup k = if k = key then value? else r.map.lookup k)
    (hsize : t.size = r'.map.population home (home key))
    (hkeys : s'.keys = r'.map.keys.card) (hlookups : s'.lookups = r'.lookups)
    (hwrites : s'.writes = r'.writes) : Represents digest shards home s' r' := by
  have hlt : home key < s.shardCount := h.shardCount_eq ▸ h.home_lt key
  have hshard := shard_of_set hlt hshards
  have hshardFor : ∀ k, s'.shardFor k digest = home k := by
    intro k
    rw [← h.shardFor_eq, shardFor, shardFor, shardIndex, shardIndex, hbits]
  refine ⟨?_, hshardFor, h.home_lt, ?_, ?_, ?_, ?_, hkeys, hlookups, hwrites⟩
  · rw [shardCount, hshards, Array.size_setIfInBounds]
    exact h.shardCount_eq
  · intro shard
    rw [hshard]
    split
    · exact hbinds.wellFormed
    · exact h.wellFormed shard
  · intro shard
    rw [hshard]
    split
    · rw [hbinds.maxCapacity]
      exact h.maxCapacity _
    · exact h.maxCapacity shard
  · intro k
    rw [peek?, hshardFor, hshard, hlookup]
    by_cases hk : k = key
    · subst hk
      rw [if_pos rfl, if_pos rfl, hbinds.get?_eq, if_pos ⟨rfl, rfl⟩]
    · rw [if_neg hk, ← h.get?_eq]
      split
      · next hhome => rw [hbinds.get?_eq, if_neg fun hsame => hk hsame.2, hhome]
      · rfl
  · intro shard
    rw [hshard]
    split
    · next heq => rw [heq, hsize]
    · next hne =>
      rw [h.size_shard]
      refine FiniteMap.population_congr ?_
      intro k hk
      -- the changed key is at home in another shard
      have hother : k ≠ key := by
        intro heq
        subst heq
        exact hne hk.symm
      rw [← Finmap.lookup_isSome, ← Finmap.lookup_isSome, hlookup, if_neg hother]

/-! ### Calls -/

/-- Counting changes no table. -/
theorem count (h : Represents digest shards home s r) (lookups writes : Nat) :
    Represents digest shards home
      { s with lookups := s.lookups + lookups, writes := s.writes + writes }
      { r with lookups := r.lookups + lookups, writes := r.writes + writes } :=
  { shardCount_eq := h.shardCount_eq
    shardFor_eq := h.shardFor_eq
    home_lt := h.home_lt
    wellFormed := h.wellFormed
    maxCapacity := h.maxCapacity
    peek?_eq := h.peek?_eq
    size_shard := h.size_shard
    keys := h.keys
    lookups := congrArg (· + lookups) h.lookups
    writes := congrArg (· + writes) h.writes }

theorem set (h : Represents digest shards home s r) (key value : Bytes) :
    (s.set key value digest).1 = (r.set home key value).1 ∧
      Represents digest shards home (s.set key value digest).2 (r.set home key value).2 := by
  have hlookup := FiniteMap.lookup_insert_eq_ite r.map key value
  have hsize := h.size_shard (home key)
  have hmax := h.maxCapacity (home key)
  have hindex : s.shardIndex (digest key) = home key := h.shardFor_eq key
  simp only [Store.set, Reference.set, onShard_eq, hindex]
  rcases (h.wellFormed (home key)).set_cases (digest key) key value with
    ⟨old, t, hold, hset, hbinds, hsize'⟩ | ⟨t, hnone, hroom, hset, hbinds, hsize'⟩ |
    ⟨hnone, hfull, hset⟩
  · have hmem : key ∈ r.map := by
      rw [h.get?_eq] at hold
      exact Finmap.mem_of_lookup_eq_some hold
    simp only [hset, if_pos hmem]
    refine ⟨trivial, h.update hbinds rfl rfl hlookup ?_ ?_ h.lookups (congrArg (· + 1) h.writes)⟩
    · simp only [hsize', hsize, FiniteMap.population, FiniteMap.keys_insert_of_mem hmem]
    · simp only [FiniteMap.keys_insert_of_mem hmem, h.keys]
  · have hnotMem : key ∉ r.map := by
      rwa [h.get?_eq, Finmap.lookup_eq_none] at hnone
    have hlt : r.map.population home (home key) < Table.ceiling := by
      rwa [← hsize, ← hmax]
    simp only [hset, if_neg hnotMem, if_pos hlt]
    refine ⟨trivial, h.update hbinds rfl rfl hlookup ?_ ?_ h.lookups (congrArg (· + 1) h.writes)⟩
    · simp only [hsize', hsize, FiniteMap.population_insert hnotMem]
    · simp only [FiniteMap.card_keys_insert hnotMem, h.keys]
  · have hnotMem : key ∉ r.map := by
      rwa [h.get?_eq, Finmap.lookup_eq_none] at hnone
    have hnotLt : ¬r.map.population home (home key) < Table.ceiling := by
      rw [← hsize, ← hmax, hfull]
      exact Nat.lt_irrefl _
    simp only [hset, if_neg hnotMem, if_neg hnotLt, hmax, setIfInBounds_shard]
    exact ⟨trivial, h.count 0 1⟩

theorem erase (h : Represents digest shards home s r) (key : Bytes) :
    (s.erase key digest).1 = decide (key ∈ r.map) ∧
      Represents digest shards home (s.erase key digest).2 { r with map := r.map.erase key } := by
  have hlookup := FiniteMap.lookup_erase_eq_ite r.map key
  have hsize := h.size_shard (home key)
  have hindex : s.shardIndex (digest key) = home key := h.shardFor_eq key
  simp only [Store.erase, onShard_eq, hindex]
  rcases (h.wellFormed (home key)).erase_cases (digest key) key with
    ⟨old, t, hold, herase, hbinds, hsize'⟩ | ⟨hnone, herase⟩
  · have hmem : key ∈ r.map := by
      rw [h.get?_eq] at hold
      exact Finmap.mem_of_lookup_eq_some hold
    simp only [herase, if_true]
    refine ⟨(decide_eq_true hmem).symm, h.update hbinds rfl rfl hlookup ?_ ?_ h.lookups h.writes⟩
    · have : FiniteMap.population (r.map.erase key) home (home key) + 1 =
          r.map.population home (home key) := FiniteMap.population_erase hmem
      show t.size = FiniteMap.population (r.map.erase key) home (home key)
      omega
    · have := FiniteMap.card_keys_erase hmem
      have := h.keys
      show s.keys - 1 = (r.map.erase key).keys.card
      omega
  · have hnotMem : key ∉ r.map := by
      rwa [h.get?_eq, Finmap.lookup_eq_none] at hnone
    simp only [herase, setIfInBounds_shard, FiniteMap.erase_of_notMem hnotMem]
    exact ⟨(decide_eq_false hnotMem).symm, h⟩

/-- **A call** is answered as the map answers it, and the store goes on standing for the map. -/
theorem perform {α : Type} (h : Represents digest shards home s r) (call : Call α) :
    (s.perform digest call).1 = (r.perform shards home call).1 ∧
      Represents digest shards home (s.perform digest call).2 (r.perform shards home call).2 := by
  cases call with
  | set key value =>
    obtain ⟨hresult, hset⟩ := h.set key value
    exact ⟨congrArg Answer.stored hresult, hset⟩
  | get key => exact ⟨congrArg Answer.value (h.peek?_eq key), h.count 1 0⟩
  | getWith key f =>
    refine ⟨?_, h.count 1 0⟩
    show Answer.seen ((s.peek? key digest).map f) = _
    rw [h.peek?_eq]
    rfl
  | erase key =>
    obtain ⟨hpresent, herase⟩ := h.erase key
    exact ⟨congrArg Answer.erased hpresent, herase⟩
  | size => exact ⟨congrArg Answer.size h.keys, h⟩
  | isEmpty =>
    refine ⟨congrArg Answer.isEmpty ?_, h⟩
    rw [Store.isEmpty, Store.size, h.keys, Bool.eq_iff_iff, beq_iff_eq, decide_eq_true_iff]
    exact FiniteMap.card_keys_eq_zero_iff
  | stats =>
    refine ⟨congrArg Answer.stats ?_, h⟩
    rw [Store.stats, h.keys, h.lookups, h.writes, h.shardCount_eq]

theorem shardCount_create_eq {count : Nat} (h : count ≤ 2 ^ 63) :
    (create count).shardCount = PowerOfTwo.ceil count := by
  have hlt : PowerOfTwo.ceil count < Word.size :=
    Nat.lt_of_le_of_lt (PowerOfTwo.ceil_le_two_pow h) (by decide)
  simp [create, shardCount, Word.wrap_of_lt hlt]

/-- A new store has a table for each pattern of the bits that choose one. -/
theorem shardCount_create {count : Nat} (h : count ≤ 2 ^ 63) :
    (create count).bits ≤ 63 ∧ (create count).shardCount = 2 ^ (create count).bits := by
  obtain ⟨k, hk⟩ := PowerOfTwo.ceil_eq_two_pow count
  have hbits : (create count).bits = k := by
    simp only [create, hk, Nat.log2_two_pow]
  refine ⟨?_, by rw [shardCount_create_eq h, hbits, hk]⟩
  have hle : PowerOfTwo.ceil count ≤ 2 ^ 63 := PowerOfTwo.ceil_le_two_pow h
  rw [hk] at hle
  rw [hbits]
  exact (Nat.pow_le_pow_iff_right (by decide)).1 hle

theorem create_represents (digest : Bytes → UInt64) {count : Nat} (h : count ≤ 2 ^ 63) :
    Represents digest (create count).shardCount (fun key => (create count).shardFor key digest)
      (create count) .empty := by
  obtain ⟨hbits, hcount⟩ := shardCount_create h
  have hshard := shard_create count
  refine ⟨rfl, fun _ => rfl, ?_, ?_, ?_, ?_, ?_, rfl, rfl, rfl⟩
  · exact fun key => shardIndex_lt hbits hcount (digest key)
  · intro shard
    rw [hshard]
    exact Table.wellFormed_create ..
  · intro shard
    rw [hshard]
    rfl
  · intro key
    rw [peek?, hshard]
    exact Table.get?_create ..
  · intro shard
    rw [hshard]
    rfl

end Represents

/-- **A store behaves as one finite map**, however many shards it has and whatever the hashes of its
keys are. In every run of calls it gives the answers that the map gives. Afterwards a lookup finds
what the map has, the number of keys is that of the map and of the entries in all the tables, and
the counts are those of the lookups and of the writes. -/
theorem run_create {α : Type} (digest : Bytes → UInt64) (count : Nat) (h : count ≤ 2 ^ 63)
    (calls : List (Call α)) :
    let start := create count
    let home := fun key => start.shardFor key digest
    let actual := Calls.run (perform digest) start calls
    let expected := Calls.run (Reference.perform start.shardCount home) .empty calls
    actual.1 = expected.1 ∧
      (∀ key, actual.2.peek? key digest = expected.2.map.lookup key) ∧
      actual.2.keys = expected.2.map.keys.card ∧
      actual.2.keys = ∑ shard ∈ Finset.range actual.2.shardCount, (actual.2.shard shard).size ∧
      actual.2.lookups = expected.2.lookups ∧ actual.2.writes = expected.2.writes := by
  intro start home actual expected
  obtain ⟨hanswers, hfinal⟩ := Calls.run_simulates
    (R := Represents digest start.shardCount home) (fun _ _ call hr => hr.perform call)
    (Represents.create_represents digest h) calls
  refine ⟨hanswers, hfinal.peek?_eq, hfinal.keys, ?_, hfinal.lookups, hfinal.writes⟩
  rw [hfinal.keys, hfinal.shardCount_eq, hfinal.sum_sizes]

/-- Three keys whose hashes are all equal, one of them written again and then removed. -/
theorem run_colliding_keys :
    3 ≤ 2 ^ 63 ∧
      (Calls.run (perform fun _ => 0) (create 3)
        [.set [1] [7, 7], .set [2] [], .set [1] [8], .getWith [1] List.length, .erase [1],
          .get [1], .erase [1], .set [] [9], .get [2], .size, .isEmpty, .stats]).1 =
        [.stored (.ok .inserted), .stored (.ok .inserted), .stored (.ok .updated),
          .seen (some 1), .erased true, .value none, .erased false, .stored (.ok .inserted),
          .value (some []), .size 2, .isEmpty false, .stats ⟨2, 3, 4, 4⟩] :=
  ⟨by decide, (run_create (fun _ => 0) 3 (by decide) _).1.trans (by decide +kernel)⟩

end Store
end RespStore
