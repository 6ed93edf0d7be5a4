import RespStore.Proofs.Calls
import RespStore.Proofs.FiniteMap
import RespStore.Proofs.Table.Erasing
import RespStore.Proofs.Table.Storing

/-!
# RespStore.Proofs.Table.Refinement

A table behaves as a finite map does, over every run of calls. The keys of the map are keys together
with their hashes, and nothing is assumed of how the two go together: hashes may collide, fall into
one bucket, or differ for the same bytes.

`Contents` is that map. It has room for so many keys and refuses a new one when it is full, which is
all it knows of slots and buckets. `Holds` relates a table to its contents. A call keeps the
relation because it binds one key anew at most (`Holds.update`), which is what
`WellFormed.set_cases` and `WellFormed.erase_cases` tell of the table.
-/

namespace RespStore.Table

/-! ### Calls -/

/-- A call of a table. -/
inductive Call
  | set (hash : UInt64) (key value : Bytes)
  | get (hash : UInt64) (key : Bytes)
  | erase (hash : UInt64) (key : Bytes)
  deriving Repr, DecidableEq

/-- What a call answers. -/
inductive Answer
  | stored (result : Except StoreError Stored)
  | value (value? : Option Bytes)
  | erased (present : Bool)
  deriving Repr, DecidableEq

/-- Makes a call. -/
def perform (t : Table) : Call → Answer × Table
  | .set hash key value =>
    let (result, t) := t.set hash key value
    (.stored result, t)
  | .get hash key => (.value (t.get? hash key), t)
  | .erase hash key =>
    let (present, t) := t.erase hash key
    (.erased present, t)

/-! ### The contents -/

/-- What a table contains: a finite map from hashed keys to values. -/
abbrev Contents := FiniteMap (UInt64 × Bytes) Bytes

namespace Contents

/-- Stores a value. A key that is present has room, and a new one if there are fewer than `room`. -/
def set (m : Contents) (room : Nat) (key : UInt64 × Bytes) (value : Bytes) :
    Except StoreError Stored × Contents :=
  if key ∈ m then (.ok .updated, m.insert key value)
  else if m.keys.card < room then (.ok .inserted, m.insert key value)
  else (.error (.capacityExceeded room), m)

/-- Makes a call, where there is `room` for so many keys. -/
def perform (room : Nat) (m : Contents) : Call → Answer × Contents
  | .set hash key value =>
    let (result, m) := m.set room (hash, key) value
    (.stored result, m)
  | .get hash key => (.value (m.lookup (hash, key)), m)
  | .erase hash key => (.erased ((hash, key) ∈ m), m.erase (hash, key))

end Contents

/-- The table holds the contents and has room for so many keys. -/
structure Holds (room : Nat) (t : Table) (m : Contents) : Prop where
  wellFormed : t.WellFormed
  maxCapacity : t.maxCapacity = room
  get?_eq : ∀ hash key, t.get? hash key = m.lookup (hash, key)
  size : t.size = m.keys.card

variable {room : Nat} {t t' : Table} {m m' : Contents} {hash : UInt64} {key : Bytes}

namespace Holds

theorem create (wanted maxWanted : Nat) :
    Holds (roundMax maxWanted) (create wanted maxWanted) ∅ where
  wellFormed := wellFormed_create wanted maxWanted
  maxCapacity := rfl
  get?_eq := get?_create wanted maxWanted
  size := rfl

theorem mem_iff (h : Holds room t m) : (hash, key) ∈ m ↔ t.get? hash key ≠ none := by
  rw [h.get?_eq, ne_eq, Finmap.lookup_eq_none, not_not]

/-- **Binding one key anew** in the table does so in the contents. -/
theorem update (h : Holds room t m) {value? : Option Bytes} (hbinds : t.Binds hash key value? t')
    (hlookup : ∀ k, m'.lookup k = if k = (hash, key) then value? else m.lookup k)
    (hsize : t'.size = m'.keys.card) : Holds room t' m' where
  wellFormed := hbinds.wellFormed
  maxCapacity := hbinds.maxCapacity.trans h.maxCapacity
  get?_eq := by
    intro hash' key'
    rw [hbinds.get?_eq, hlookup, h.get?_eq]
    simp only [Prod.mk.injEq]
  size := hsize

theorem set (h : Holds room t m) (hash : UInt64) (key value : Bytes) :
    (t.set hash key value).1 = (m.set room (hash, key) value).1 ∧
      Holds room (t.set hash key value).2 (m.set room (hash, key) value).2 := by
  have hlookup := FiniteMap.lookup_insert_eq_ite m (hash, key) value
  rw [Contents.set, ← h.maxCapacity, ← h.size]
  rcases h.wellFormed.set_cases hash key value with
    ⟨old, t', hold, hset, hbinds, hsize⟩ | ⟨t', hnone, hroom, hset, hbinds, hsize⟩ |
    ⟨hnone, hfull, hset⟩
  · have hmem : (hash, key) ∈ m := h.mem_iff.2 (by simp [hold])
    rw [if_pos hmem, hset]
    refine ⟨rfl, h.maxCapacity ▸ h.update hbinds hlookup ?_⟩
    rw [hsize, h.size, FiniteMap.keys_insert_of_mem hmem]
  · have hnotMem : (hash, key) ∉ m := mt h.mem_iff.1 (not_not.2 hnone)
    rw [if_neg hnotMem, if_pos hroom, hset]
    refine ⟨rfl, h.maxCapacity ▸ h.update hbinds hlookup ?_⟩
    rw [hsize, h.size, FiniteMap.card_keys_insert hnotMem]
  · have hnotMem : (hash, key) ∉ m := mt h.mem_iff.1 (not_not.2 hnone)
    rw [if_neg hnotMem, if_neg (hfull ▸ Nat.lt_irrefl _), hset]
    exact ⟨rfl, h.maxCapacity ▸ h⟩

theorem erase (h : Holds room t m) (hash : UInt64) (key : Bytes) :
    (t.erase hash key).1 = decide ((hash, key) ∈ m) ∧
      Holds room (t.erase hash key).2 (m.erase (hash, key)) := by
  rcases h.wellFormed.erase_cases hash key with
    ⟨old, t', hold, herase, hbinds, hsize⟩ | ⟨hnone, herase⟩
  · have hmem : (hash, key) ∈ m := h.mem_iff.2 (by simp [hold])
    rw [herase]
    refine ⟨(decide_eq_true hmem).symm,
      h.update hbinds (FiniteMap.lookup_erase_eq_ite m (hash, key)) ?_⟩
    have hcard := FiniteMap.card_keys_erase hmem
    rw [← h.size, ← hsize] at hcard
    exact (Nat.succ.inj hcard).symm
  · have hnotMem : (hash, key) ∉ m := mt h.mem_iff.1 (not_not.2 hnone)
    rw [herase, FiniteMap.erase_of_notMem hnotMem]
    exact ⟨(decide_eq_false hnotMem).symm, h⟩

/-- **A call** is answered from the contents, and the table goes on holding them. -/
theorem perform (h : Holds room t m) (call : Call) :
    (t.perform call).1 = (m.perform room call).1 ∧
      Holds room (t.perform call).2 (m.perform room call).2 := by
  cases call with
  | set hash key value =>
    obtain ⟨hresult, hset⟩ := h.set hash key value
    exact ⟨congrArg Answer.stored hresult, hset⟩
  | get hash key => exact ⟨congrArg Answer.value (h.get?_eq hash key), h⟩
  | erase hash key =>
    obtain ⟨hpresent, herase⟩ := h.erase hash key
    exact ⟨congrArg Answer.erased hpresent, herase⟩

end Holds

/-- A run of calls is answered from the contents, and leaves a table that holds them. -/
theorem run_holds (wanted maxWanted : Nat) (calls : List Call) :
    let actual := Calls.run perform (create wanted maxWanted) calls
    let expected := Calls.run (Contents.perform (roundMax maxWanted)) ∅ calls
    actual.1 = expected.1 ∧ Holds (roundMax maxWanted) actual.2 expected.2 :=
  Calls.run_simulates (fun _ _ call h => h.perform call) (Holds.create wanted maxWanted) calls

/-- **A table behaves as one finite map from hashed keys to values**, of whatever size it is created
and whatever hashes its callers supply. In every run of calls it gives the answers that the map
gives. Afterwards a lookup finds what the map has, and the number of entries is that of the keys. -/
theorem run_refines_map (wanted maxWanted : Nat) (calls : List Call) :
    let actual := Calls.run perform (create wanted maxWanted) calls
    let expected := Calls.run (Contents.perform (roundMax maxWanted)) ∅ calls
    actual.1 = expected.1 ∧
      (∀ hash key, actual.2.get? hash key = expected.2.lookup (hash, key)) ∧
      actual.2.size = expected.2.keys.card := by
  intro actual expected
  obtain ⟨hanswers, hfinal⟩ := run_holds wanted maxWanted calls
  exact ⟨hanswers, hfinal.get?_eq, hfinal.size⟩

/-- Room for two: one key under two hashes, and another key that has to wait. -/
example :
    (Calls.run perform (create 1 2)
      [.set 5 [1] [7], .set 9 [1] [8, 8], .set 5 [2] [], .erase 5 [1], .set 5 [2] [9],
        .get 9 [1], .get 5 [1], .get 5 [2]]).1 =
      [.stored (.ok .inserted), .stored (.ok .inserted), .stored (.error (.capacityExceeded 2)),
        .erased true, .stored (.ok .inserted), .value (some [8, 8]), .value none,
        .value (some [9])] := by
  decide

end RespStore.Table
