import RespStore.Proofs.Table.Refinement

/-!
# RespStore.Proofs.Table.Consistency

The lists and the counts of a table, in every state that calls can bring it to. Each occupied slot
is on the one chain that its hash chooses, and each vacant slot on the free list, all of them once;
all lists come to an end; and the counts are what counting the slots gives.

`Consistent` says so of the slots themselves. It follows from what the operations keep, which is
`WellFormed` (`WellFormed.consistent`): a path passes no slot twice, and the slots on the free list
can be counted because the list is as long as there are vacant slots.
-/

namespace RespStore

/-- There is an entry in the slot. -/
def Slot.isOccupied : Slot → Bool
  | .occupied _ => true
  | .vacant _ => false

namespace Table

variable {t : Table} {index bucket : Nat}

/-! ### The slots themselves -/

theorem entryAt?_eq_some_iff {e : Entry} :
    t.entryAt? index = some e ↔ t.slots[index]? = some (.occupied e) := by
  rw [entryAt?, Option.bind_eq_some_iff]
  constructor
  · rintro ⟨slot, hslot, hcontent⟩
    cases slot with
    | occupied f =>
      cases hcontent
      exact hslot
    | vacant link => cases hcontent
  · intro hslot
    exact ⟨_, hslot, rfl⟩

theorem isSome_freeLink?_iff :
    (t.freeLink? index).isSome ↔ ∃ link, t.slots[index]? = some (.vacant link) := by
  rw [Option.isSome_iff_exists]
  simp only [freeLink?_eq_some_iff]

/-- The chain of a bucket: following the bucket passes the slots `path`, none of them twice, and
comes to an end; and they hold entries whose hashes have the low bits that choose this bucket. -/
structure IsChain (t : Table) (bucket : Nat) (path : List Nat) : Prop where
  leads : Leads t.entryLink? (t.buckets.getD bucket none) path
  nodup : path.Nodup
  entries : ∀ index ∈ path, ∃ e, t.slots[index]? = some (.occupied e) ∧
    e.hash.toNat &&& (t.capacity - 1) = bucket

/-- The free list: following it passes the slots `path`, none of them twice, and comes to an end;
and they are the vacant slots. -/
structure IsFreeList (t : Table) (path : List Nat) : Prop where
  leads : Leads t.freeLink? t.freeHead path
  nodup : path.Nodup
  mem_iff : ∀ index, index ∈ path ↔ ∃ link, t.slots[index]? = some (.vacant link)

/-- The slots of a table are shared out among its lists, and its counts are right. -/
structure Consistent (t : Table) : Prop where
  capacity_eq : ∃ k, t.capacity = 2 ^ k
  capacity_le : t.capacity ≤ t.maxCapacity
  slots_le : t.slots.size ≤ t.capacity
  /-- Every entry is on the chain of one bucket. -/
  chains : ∃ chain : Nat → List Nat, (∀ bucket < t.capacity, t.IsChain bucket (chain bucket)) ∧
    ∀ index e, t.slots[index]? = some (.occupied e) →
      ∃! bucket, bucket < t.capacity ∧ index ∈ chain bucket
  /-- No two entries are for the same key. -/
  distinct : ∀ (i j : Nat) (e f : Entry), t.slots[i]? = some (.occupied e) →
    t.slots[j]? = some (.occupied f) → e.hash = f.hash → e.key.bytes = f.key.bytes → i = j
  frees : ∃ free, t.IsFreeList free ∧ t.freeCount = free.length
  size_eq : t.size = t.slots.toList.countP Slot.isOccupied
  size_add : t.size + t.freeCount = t.slots.size

/-! ### Well-formed tables -/

theorem Laid.isChain {loose : Option Nat} {chain : Nat → List Nat} {free : List Nat}
    (h : t.Laid loose chain free) (hbucket : bucket < t.capacity) :
    t.IsChain bucket (chain bucket) := by
  refine ⟨h.chains bucket hbucket, (h.chains bucket hbucket).nodup, ?_⟩
  intro index hindex
  obtain ⟨-, b, hb, hhash⟩ := (h.mem_chain bucket hbucket index).1 hindex
  obtain ⟨e, he, rfl⟩ := bindingAt?_eq_some_iff.1 hb
  exact ⟨e, entryAt?_eq_some_iff.1 he, hhash⟩

theorem Laid.isFreeList {chain : Nat → List Nat} {free : List Nat} (h : t.Laid none chain free) :
    t.IsFreeList free := by
  refine ⟨h.frees, h.frees.nodup, ?_⟩
  intro index
  rw [h.mem_free, isSome_freeLink?_iff]
  exact and_iff_right (by simp)

/-- An entry is on the chain of its bucket and on no other. -/
theorem Laid.existsUnique_chain {chain : Nat → List Nat} {free : List Nat}
    (h : t.Laid none chain free) (hpos : 0 < t.capacity) {e : Entry}
    (he : t.slots[index]? = some (.occupied e)) :
    ∃! bucket, bucket < t.capacity ∧ index ∈ chain bucket := by
  have hbinding : t.bindingAt? index = some e.binding :=
    bindingAt?_eq_some_iff.2 ⟨e, entryAt?_eq_some_iff.2 he, rfl⟩
  have hlt : t.bucketOf e.hash < t.capacity := bucketAmong_lt hpos e.hash
  refine ⟨t.bucketOf e.hash, ⟨hlt, (h.mem_chain _ hlt index).2 ⟨by simp, _, hbinding, rfl⟩⟩, ?_⟩
  rintro bucket ⟨hbucket, hmem⟩
  obtain ⟨-, b, hb, hhash⟩ := (h.mem_chain bucket hbucket index).1 hmem
  rw [hbinding, Option.some.injEq] at hb
  rw [← hhash, ← hb]
  rfl

/-- A chain is no longer than there are occupied slots. -/
theorem IsChain.length_le {path : List Nat} (h : t.IsChain bucket path) :
    path.length ≤ t.slots.toList.countP Slot.isOccupied := by
  rw [← List.length_findIdxs (s := 0)]
  refine (List.subperm_of_subset h.nodup ?_).length_le
  intro index hindex
  obtain ⟨e, he, -⟩ := h.entries index hindex
  obtain ⟨hlt, hslot⟩ := Array.getElem?_eq_some_iff.1 he
  rw [List.mem_findIdxs_iff_exists_getElem_pos]
  exact ⟨hlt, by simp [hslot, Slot.isOccupied]⟩

/-- **The free list is as long as there are vacant slots.** -/
theorem IsFreeList.length_eq {free : List Nat} (h : t.IsFreeList free) :
    free.length = t.slots.toList.countP fun s => !s.isOccupied := by
  rw [← List.length_findIdxs (s := 0)]
  refine ((List.perm_ext_iff_of_nodup h.nodup List.nodup_findIdxs).2 ?_).length_eq
  intro index
  rw [h.mem_iff, List.mem_findIdxs_iff_exists_getElem_pos]
  constructor
  · rintro ⟨link, hslot⟩
    obtain ⟨hlt, hslot⟩ := Array.getElem?_eq_some_iff.1 hslot
    exact ⟨hlt, by simp [hslot, Slot.isOccupied]⟩
  · rintro ⟨hlt, hvacant⟩
    rw [Array.getElem_toList] at hvacant
    cases hslot : t.slots[index] with
    | occupied e => simp [hslot, Slot.isOccupied] at hvacant
    | vacant link => exact ⟨link, Array.getElem?_eq_some_iff.2 ⟨hlt, hslot⟩⟩

/-- **A well-formed table is consistent.** -/
theorem WellFormed.consistent (h : t.WellFormed) : t.Consistent := by
  obtain ⟨chain, free, hlaid⟩ := h.laid
  refine ⟨h.capacity_eq, h.capacity_le, h.slots_le, ⟨chain, ?_, ?_⟩, ?_,
    ⟨free, hlaid.isFreeList, hlaid.freeCount⟩, ?_, h.size_add⟩
  · intro bucket hbucket
    exact hlaid.isChain hbucket
  · intro index e he
    exact hlaid.existsUnique_chain h.capacity_pos he
  · intro i j e f he hf hhash hkey
    exact h.distinct i j e.binding f.binding
      (bindingAt?_eq_some_iff.2 ⟨e, entryAt?_eq_some_iff.2 he, rfl⟩)
      (bindingAt?_eq_some_iff.2 ⟨f, entryAt?_eq_some_iff.2 hf, rfl⟩) hhash hkey
  · have hsplit := List.length_eq_countP_add_countP Slot.isOccupied (l := t.slots.toList)
    have hvacant := hlaid.isFreeList.length_eq
    have hadd := h.size_add
    rw [hlaid.freeCount] at hadd
    simp only [Array.length_toList, Bool.not_eq_true, Bool.decide_eq_false] at hsplit
    omega

/-- Where there is an entry there is one to count. -/
theorem WellFormed.size_pos (h : t.WellFormed) {e : Entry} (he : t.entryAt? index = some e) :
    0 < t.size := by
  have hslot : t.slots.toList[index]? = some (.occupied e) := by
    rw [Array.getElem?_toList]
    exact entryAt?_eq_some_iff.1 he
  rw [h.consistent.size_eq, List.countP_pos_iff]
  exact ⟨_, List.mem_of_getElem? hslot, rfl⟩

/-! ### Runs of calls -/

/-- **Every run of calls leaves a table consistent**, whether its calls succeed or fail. There is
always a power of two of buckets and no more than there may be; each occupied slot is on exactly one
chain, and each vacant one on the free list; all lists end; and the counts are right. -/
theorem run_consistent (wanted maxWanted : Nat) (calls : List Call) :
    let t := (Calls.run perform (create wanted maxWanted) calls).2
    t.maxCapacity = roundMax maxWanted ∧ t.Consistent := by
  intro t
  obtain ⟨-, h⟩ := run_holds wanted maxWanted calls
  exact ⟨h.maxCapacity, h.wellFormed.consistent⟩

end Table
end RespStore
