import RespStore.Proofs.Store.Refinement
import RespStore.Proofs.Table.Consistency

/-!
# RespStore.Proofs.Store.Partition

The shards of a store divide its keys among them. The high bits of a key's hash choose its shard,
every entry is kept with that hash, and so every key has one shard where it can be, and one entry
there at most.

A call of a store binds one key anew at most, in the table of the key's own shard
(`perform_cases`). From this both come: calls with a key leave all other shards alone, and every
entry stays where its key belongs (`Placed`).
-/

namespace RespStore.Store

variable {α : Type} {digest : Bytes → UInt64} {shards : Nat} {home : Bytes → Nat}
variable {s s' : Store} {r : Reference} {key : Bytes}

/-! ### What a call changes -/

/-- The key that a call is about. -/
def Call.key? : Call α → Option Bytes
  | .set key _ => some key
  | .get key => some key
  | .getWith key _ => some key
  | .erase key => some key
  | .size => none
  | .isEmpty => none
  | .stats => none

/-- The store `s'` has the tables of `s`, but for the shard of one key, where that key may be bound
anew. -/
inductive Rebinds (digest : Bytes → UInt64) (key? : Option Bytes) (s s' : Store) : Prop
  | same (hshards : s'.shards = s.shards)
  | rebound {key : Bytes} {value? : Option Bytes} {t : Table} (hkey : key? = some key)
      (hshards : s'.shards = s.shards.setIfInBounds (s.shardFor key digest) t)
      (hbinds : (s.shard (s.shardFor key digest)).Binds (digest key) key value? t)

theorem perform_cases (digest : Bytes → UInt64) (hwf : ∀ shard, (s.shard shard).WellFormed)
    (call : Call α) :
    (s.perform digest call).2.bits = s.bits ∧
      Rebinds digest call.key? s (s.perform digest call).2 := by
  cases call with
  | set key value =>
    simp only [perform, set, onShard_eq]
    rcases (hwf (s.shardIndex (digest key))).set_cases (digest key) key value with
      ⟨_, t, -, hset, hbinds, -⟩ | ⟨t, -, -, hset, hbinds, -⟩ | ⟨-, -, hset⟩
    · rw [hset]
      exact ⟨rfl, .rebound rfl rfl hbinds⟩
    · rw [hset]
      exact ⟨rfl, .rebound rfl rfl hbinds⟩
    · rw [hset]
      exact ⟨rfl, .same (setIfInBounds_shard s _)⟩
  | erase key =>
    simp only [perform, erase, onShard_eq]
    rcases (hwf (s.shardIndex (digest key))).erase_cases (digest key) key with
      ⟨_, t, -, herase, hbinds, -⟩ | ⟨-, herase⟩
    · rw [herase]
      exact ⟨rfl, .rebound rfl rfl hbinds⟩
    · rw [herase]
      exact ⟨rfl, .same (setIfInBounds_shard s _)⟩
  | get key => exact ⟨rfl, .same rfl⟩
  | getWith key f => exact ⟨rfl, .same rfl⟩
  | size => exact ⟨rfl, .same rfl⟩
  | isEmpty => exact ⟨rfl, .same rfl⟩
  | stats => exact ⟨rfl, .same rfl⟩

/-- Other shards than that of the key are left alone. -/
theorem Rebinds.shard_eq (h : Rebinds digest (some key) s s')
    (hlt : s.shardFor key digest < s.shardCount) {i : Nat} (hne : i ≠ s.shardFor key digest) :
    s'.shard i = s.shard i := by
  cases h with
  | same hshards => rw [shard, shard, hshards]
  | rebound hkey hshards =>
    cases hkey
    rw [shard_of_set hlt hshards, if_neg hne]

/-! ### Where entries are -/

/-- A key that is found anywhere is found under its own hash, and in the shard that this hash
chooses. -/
def Placed (digest : Bytes → UInt64) (s : Store) : Prop :=
  ∀ shard hash key, (s.shard shard).get? hash key ≠ none →
    hash = digest key ∧ s.shardIndex hash = shard

theorem Placed.rebinds (h : Placed digest s) {key? : Option Bytes}
    (hlt : ∀ key, s.shardFor key digest < s.shardCount) (hbits : s'.bits = s.bits)
    (hs : Rebinds digest key? s s') : Placed digest s' := by
  have hindex (hash : UInt64) : s'.shardIndex hash = s.shardIndex hash := by
    rw [shardIndex, shardIndex, hbits]
  intro i hash k hfound
  rw [hindex]
  cases hs with
  | same hshards =>
    rw [shard, hshards] at hfound
    exact h i hash k hfound
  | @rebound key _ t _ hshards hbinds =>
    rw [shard_of_set (hlt key) hshards] at hfound
    by_cases hi : i = s.shardFor key digest
    · rw [if_pos hi, hbinds.get?_eq] at hfound
      by_cases hsame : hash = digest key ∧ k = key
      · obtain ⟨rfl, rfl⟩ := hsame
        exact ⟨rfl, hi.symm⟩
      · rw [if_neg hsame, ← hi] at hfound
        exact h i hash k hfound
    · rw [if_neg hi] at hfound
      exact h i hash k hfound

/-- There is an entry in a slot of a shard. -/
def EntryAt (s : Store) (shard slot : Nat) (e : Entry) : Prop :=
  (s.shard shard).slots[slot]? = some (.occupied e)

/-- The key is live in a shard. -/
def LiveIn (s : Store) (shard : Nat) (key : Bytes) : Prop :=
  ∃ slot e, s.EntryAt shard slot e ∧ e.key.bytes = key

/-- The shards divide the keys of the store among them. -/
structure Partitioned (digest : Bytes → UInt64) (s : Store) : Prop where
  shardCount_eq : s.shardCount = 2 ^ s.bits
  shardIndex_lt : ∀ hash, s.shardIndex hash < s.shardCount
  /-- Entries are kept with the hashes of their keys, in the shards that these choose. -/
  placed : ∀ shard slot e, s.EntryAt shard slot e →
    e.hash = digest e.key.bytes ∧ s.shardIndex e.hash = shard
  /-- A key has one entry at most, in all shards together. -/
  unique : ∀ i j m n e f, s.EntryAt i m e → s.EntryAt j n f → e.key.bytes = f.key.bytes →
    i = j ∧ m = n
  /-- The live keys are as many as the store counts, and as the tables of the shards do. -/
  live : ∃ live : Finset Bytes, (∀ key, key ∈ live ↔ ∃ shard, s.LiveIn shard key) ∧
    live.card = s.keys ∧ live.card = ∑ shard ∈ Finset.range s.shardCount, (s.shard shard).size

theorem bindingAt?_of_entryAt {shard slot : Nat} {e : Entry} (h : s.EntryAt shard slot e) :
    (s.shard shard).bindingAt? slot = some e.binding :=
  Table.bindingAt?_eq_some_iff.2 ⟨e, Table.entryAt?_eq_some_iff.2 h, rfl⟩

/-- An entry is found under its hash. -/
theorem get?_of_entryAt (hwf : ∀ shard, (s.shard shard).WellFormed) {shard slot : Nat} {e : Entry}
    (h : s.EntryAt shard slot e) :
    (s.shard shard).get? e.hash e.key.bytes = some e.value.bytes :=
  (hwf shard).get?_eq_some_iff.2 ⟨slot, bindingAt?_of_entryAt h⟩

theorem Placed.of_entryAt (h : Placed digest s) (hwf : ∀ shard, (s.shard shard).WellFormed)
    {shard slot : Nat} {e : Entry} (he : s.EntryAt shard slot e) :
    e.hash = digest e.key.bytes ∧ s.shardIndex e.hash = shard :=
  h shard e.hash e.key.bytes (by simp [get?_of_entryAt hwf he])

/-- A key of the map is live in its shard, and no other key is live anywhere. -/
theorem Represents.mem_keys_iff (h : Represents digest shards home s r)
    (hplaced : Placed digest s) :
    key ∈ r.map.keys ↔ ∃ shard, s.LiveIn shard key := by
  rw [Finmap.mem_keys]
  constructor
  · intro hmem
    obtain ⟨value, hvalue⟩ := Finmap.mem_iff.1 hmem
    rw [← h.get?_eq, (h.wellFormed _).get?_eq_some_iff] at hvalue
    obtain ⟨slot, hbinding⟩ := hvalue
    obtain ⟨e, he, hfor⟩ := Table.bindingAt?_eq_some_iff.1 hbinding
    exact ⟨home key, slot, e, Table.entryAt?_eq_some_iff.1 he, congrArg Binding.key hfor⟩
  · rintro ⟨shard, slot, e, he, rfl⟩
    obtain ⟨hhash, hshard⟩ := hplaced.of_entryAt h.wellFormed he
    have hhome : shard = home e.key.bytes := by
      rw [← hshard, ← h.shardFor_eq, shardFor, hhash]
    have hfound := get?_of_entryAt h.wellFormed he
    rw [hhome, hhash, h.get?_eq] at hfound
    exact Finmap.mem_of_lookup_eq_some hfound

/-! ### Runs of calls -/

/-- The store stands for the map, has a shard for each pattern of so many bits, and keeps its
entries where they belong. -/
structure Sharded (digest : Bytes → UInt64) (bits : Nat) (home : Bytes → Nat) (s : Store)
    (r : Reference) : Prop where
  represents : Represents digest (2 ^ bits) home s r
  bits_eq : s.bits = bits
  placed : Placed digest s

namespace Sharded

variable {bits : Nat}

theorem shardFor_lt (h : Sharded digest bits home s r) (key : Bytes) :
    s.shardFor key digest < s.shardCount := by
  rw [h.represents.shardFor_eq, h.represents.shardCount_eq]
  exact h.represents.home_lt key

/-- A call leaves every entry where it belongs. -/
theorem perform (h : Sharded digest bits home s r) (call : Call α) :
    (s.perform digest call).1 = (r.perform (2 ^ bits) home call).1 ∧
      Sharded digest bits home (s.perform digest call).2 (r.perform (2 ^ bits) home call).2 := by
  obtain ⟨hanswer, hnext⟩ := h.represents.perform call
  obtain ⟨hbits, hrebinds⟩ := perform_cases digest h.represents.wellFormed call
  exact ⟨hanswer, hnext, hbits.trans h.bits_eq, h.placed.rebinds h.shardFor_lt hbits hrebinds⟩

theorem partitioned (h : Sharded digest bits home s r) (hbits : bits ≤ 63) :
    Partitioned digest s where
  shardCount_eq := by rw [h.represents.shardCount_eq, h.bits_eq]
  shardIndex_lt := by
    have hcount : s.shardCount = 2 ^ s.bits := by rw [h.represents.shardCount_eq, h.bits_eq]
    exact shardIndex_lt (h.bits_eq ▸ hbits) hcount
  placed := fun _ _ _ he => h.placed.of_entryAt h.represents.wellFormed he
  unique := by
    intro i j m n e f he hf hkey
    have hwf := h.represents.wellFormed
    obtain ⟨hhash, hshard⟩ := h.placed.of_entryAt hwf he
    obtain ⟨hhash', hshard'⟩ := h.placed.of_entryAt hwf hf
    have hsame : e.hash = f.hash := by rw [hhash, hhash', hkey]
    obtain rfl : i = j := by rw [← hshard, ← hshard', hsame]
    exact ⟨rfl, (hwf i).distinct m n e.binding f.binding (bindingAt?_of_entryAt he)
      (bindingAt?_of_entryAt hf) hsame hkey⟩
  live := by
    refine ⟨r.map.keys, fun key => h.represents.mem_keys_iff h.placed, h.represents.keys.symm, ?_⟩
    rw [h.represents.shardCount_eq, h.represents.sum_sizes]

theorem create (digest : Bytes → UInt64) {count : Nat} (h : count ≤ 2 ^ 63) :
    Sharded digest (create count).bits (fun key => (create count).shardFor key digest)
      (create count) .empty := by
  obtain ⟨-, hcount⟩ := Represents.shardCount_create h
  refine ⟨hcount ▸ Represents.create_represents digest h, rfl, ?_⟩
  intro shard hash key hfound
  rw [shard_create] at hfound
  exact absurd (Table.get?_create ..) hfound

end Sharded

/-- **The shards divide the keys of a store among them**, however many shards it is created with and
whatever calls it has had. Every hash chooses one of the shards. Every entry is in the shard that
the hash of its key chooses, so a key has one entry at most, and the store counts as many keys as
its tables do together. A call with a key leaves all shards but that of the key as they are. -/
theorem run_partitioned (digest : Bytes → UInt64) (count : Nat) (h : count ≤ 2 ^ 63)
    (calls : List (Call α)) :
    let s := (Calls.run (perform digest) (create count) calls).2
    s.shardCount = PowerOfTwo.ceil count ∧ s.Partitioned digest ∧
      ∀ (call : Call α) key, call.key? = some key → ∀ shard, shard ≠ s.shardFor key digest →
        (s.perform digest call).2.shard shard = s.shard shard := by
  intro s
  obtain ⟨hbits, hcount⟩ := Represents.shardCount_create h
  obtain ⟨-, hs⟩ := Calls.run_simulates
    (R := Sharded digest (create count).bits fun key => (create count).shardFor key digest)
    (fun _ _ call hr => hr.perform call) (Sharded.create digest h) calls
  refine ⟨?_, hs.partitioned hbits, ?_⟩
  · rw [hs.represents.shardCount_eq, ← hcount, Represents.shardCount_create_eq h]
  · intro call key hkey shard hne
    obtain ⟨-, hrebinds⟩ := perform_cases digest hs.represents.wellFormed call
    rw [hkey] at hrebinds
    exact hrebinds.shard_eq (hs.shardFor_lt key) hne

/-- Four keys over four shards, one of them written twice and one removed. The digest is the one
that the store uses. -/
theorem run_partitioned_four_keys :
    let calls : List (Call Unit) :=
      [.set [1] [7], .set [2] [8], .set [3] [], .set [4] [9], .set [1] [5], .erase [2]]
    let s := (Calls.run (perform Xxh3.hash) (create 3) calls).2
    3 ≤ 2 ^ 63 ∧ s.keys = 3 ∧ (List.range 4).map (fun i => (s.shard i).size) = [1, 1, 0, 1] ∧
      s.shardCount = PowerOfTwo.ceil 3 ∧ s.Partitioned Xxh3.hash := by
  intro calls s
  have hcount : 3 ≤ 2 ^ 63 := by decide
  obtain ⟨hshards, hparts, -⟩ := run_partitioned Xxh3.hash 3 hcount calls
  exact ⟨hcount, by decide +kernel, by decide +kernel, hshards, hparts⟩

end RespStore.Store
