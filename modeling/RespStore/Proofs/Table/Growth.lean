import RespStore.Proofs.Table.Consistency

/-!
# RespStore.Proofs.Table.Growth

A table that grows links its entries anew and is otherwise as before (`Grown`). The loop works in the
slots themselves (`relinkInPlace`). Behind the slot it has come to, entries have the links of the new
chains; from there on they still have those of the old ones, which lead through entries of both
kinds.

No link of an old chain is ever read, so it makes no difference that the slots are overwritten on the
way: the loop leaves what `relink` builds from nothing (`relinkInPlace_eq`). What else is in the slots
can be compared when the links are left out (`Slot.detached`).
-/

namespace RespStore

/-- The slot with its entry on no chain. -/
def Slot.detached : Slot → Slot := Slot.update fun e => { e with next := none }

namespace Table

variable {t t' : Table}

/-! ### Linking in place -/

/-- Links the entry in the slot at `index` at the head of its chain. -/
def relinkAt (state : Array Slot × Array Link) (index : Nat) : Array Slot × Array Link :=
  let (slots, buckets) := state
  match slots[index]? with
  | some (.occupied e) =>
    let bucket := bucketAmong buckets.size e.hash
    let next := buckets.getD bucket none
    (slots.setIfInBounds index (.occupied { e with next }),
      buckets.setIfInBounds bucket (some index))
  | _ => (slots, buckets)

/-- Links every entry anew among `count` buckets, slot by slot. -/
def relinkInPlace (t : Table) (count : Nat) : Table :=
  let (slots, buckets) :=
    (List.range t.slots.size).foldl relinkAt (t.slots, Array.replicate count none)
  { t with slots, buckets }

/-- One slot moves from those that the loop has not come to, to those that it has passed. -/
theorem relinkAt_append (done : Array Slot) (buckets : Array Link) (slot : Slot)
    (rest : List Slot) :
    relinkAt (done ++ slot :: rest, buckets) done.size =
      ((relinkSlot (done, buckets) slot).1 ++ rest, (relinkSlot (done, buckets) slot).2) := by
  have hslot : (done ++ slot :: rest)[done.size]? = some slot := by
    rw [← Array.getElem?_toList, Array.toList_appendList, ← Array.length_toList,
      List.getElem?_append_right (Nat.le_refl _), Nat.sub_self, List.getElem?_cons_zero]
  have hpush (slot' : Slot) :
      (done ++ slot :: rest).setIfInBounds done.size slot' = done.push slot' ++ rest := by
    apply Array.toList_inj.1
    rw [Array.toList_setIfInBounds, Array.toList_appendList, Array.toList_appendList,
      Array.toList_push, ← Array.length_toList, List.set_append_right _ _ (Nat.le_refl _),
      Nat.sub_self, List.set_cons_zero, List.append_assoc, List.singleton_append]
  cases slot with
  | vacant link =>
    simp only [relinkAt, hslot, relinkSlot]
    rw [Array.appendList_cons]
  | occupied e =>
    simp only [relinkAt, hslot, relinkSlot, hpush]

/-- What the loop does to the slots that it has not come to. -/
theorem foldl_relinkAt (done : Array Slot) (buckets : Array Link) (rest : List Slot) :
    (List.range' done.size rest.length).foldl relinkAt (done ++ rest, buckets) =
      rest.foldl relinkSlot (done, buckets) := by
  -- the row as a whole stays as long as it is; the part that is done gets longer by one
  induction rest generalizing done buckets with
  | nil => simp
  | cons slot rest ih =>
    have hsize : (relinkSlot (done, buckets) slot).1.size = done.size + 1 := by
      cases slot <;> exact Array.size_push _
    rw [List.length_cons, List.range'_succ, List.foldl_cons, relinkAt_append, List.foldl_cons,
      ← hsize, ih]

/-- **Overwriting the slots on the way** comes to the same as building them anew. -/
theorem relinkInPlace_eq (t : Table) (count : Nat) : t.relinkInPlace count = t.relink count := by
  have hloop := foldl_relinkAt #[] (Array.replicate count none) t.slots.toList
  have hstart : (#[] : Array Slot) ++ t.slots.toList = t.slots := by simp
  rw [hstart, Array.length_toList, Array.size_empty, ← List.range_eq_range'] at hloop
  rw [relinkInPlace, hloop, Array.foldl_toList, relink]

/-! ### What stays -/

theorem relinkSlot_detached (state : Array Slot × Array Link) (slot : Slot) :
    (relinkSlot state slot).1.map Slot.detached =
      (state.1.map Slot.detached).push slot.detached := by
  cases slot <;> exact Array.map_push

theorem foldl_relinkSlot_detached (slots : List Slot) (state : Array Slot × Array Link) :
    (slots.foldl relinkSlot state).1.map Slot.detached =
      state.1.map Slot.detached ++ slots.map Slot.detached := by
  induction slots generalizing state with
  | nil => simp
  | cons slot slots ih =>
    rw [List.foldl_cons, ih, relinkSlot_detached, List.map_cons, Array.appendList_cons]

/-- **Slots stay as they are, but for the links of entries.** -/
theorem relink_detached (t : Table) (count : Nat) :
    (t.relink count).slots.map Slot.detached = t.slots.map Slot.detached := by
  rw [relink, ← Array.foldl_toList, foldl_relinkSlot_detached]
  apply Array.toList_inj.1
  simp

/-- Where a key is found depends on what the entries say, and not on how they are linked. -/
theorem WellFormed.find?_congr (h : t.WellFormed) (h' : t'.WellFormed)
    (hbindings : t'.bindingAt? = t.bindingAt?) (hash : UInt64) (key : Bytes) :
    t'.find? hash key = t.find? hash key := by
  refine Option.ext ?_
  intro index
  rw [h'.find?_eq_some_iff, h.find?_eq_some_iff, hbindings]

/-- The entries on a chain are those that belong there. -/
theorem Laid.mem_chain_iff {chain : Nat → List Nat} {free : List Nat}
    (h : t.Laid none chain free) {bucket : Nat} (hbucket : bucket < t.capacity) (index : Nat) :
    index ∈ chain bucket ↔ ∃ e, t.slots[index]? = some (.occupied e) ∧
      e.hash.toNat &&& (t.capacity - 1) = bucket := by
  rw [h.mem_chain bucket hbucket index]
  constructor
  · intro hmem
    obtain ⟨-, b, hb, hhash⟩ := hmem
    obtain ⟨e, he, rfl⟩ := bindingAt?_eq_some_iff.1 hb
    exact ⟨e, entryAt?_eq_some_iff.1 he, hhash⟩
  · intro hentry
    obtain ⟨e, he, hhash⟩ := hentry
    have hb := bindingAt?_eq_some_iff.2 ⟨e, entryAt?_eq_some_iff.2 he, rfl⟩
    exact ⟨by simp, e.binding, hb, hhash⟩

/-! ### Growing -/

/-- The table `t'` is `t` with twice as many buckets, and only the links of entries differ. -/
structure Grown (t t' : Table) : Prop where
  capacity : t'.capacity = 2 * t.capacity
  /-- Every key is found where it was, and no other is. -/
  find?_eq : ∀ hash key, t'.find? hash key = t.find? hash key
  /-- Hashes, keys and values stay, and so do the links of the free list. -/
  slots : t'.slots.map Slot.detached = t.slots.map Slot.detached
  freeHead : t'.freeHead = t.freeHead
  freeCount : t'.freeCount = t.freeCount
  size : t'.size = t.size
  maxCapacity : t'.maxCapacity = t.maxCapacity
  /-- The chain of a bucket passes the entries whose hashes have its low bits, each of them once. -/
  chains : ∀ bucket < t'.capacity, ∃ path, t'.IsChain bucket path ∧ ∀ index,
    index ∈ path ↔ ∃ e, t'.slots[index]? = some (.occupied e) ∧
      e.hash.toNat &&& (t'.capacity - 1) = bucket

/-- **A table that may grow does so without losing or changing an entry.** -/
theorem WellFormed.grow_grown (h : t.WellFormed) (hroom : t.capacity < t.maxCapacity) :
    t.grow = (.ok (), t.relinkInPlace (2 * t.capacity)) ∧
      Grown t (t.relinkInPlace (2 * t.capacity)) := by
  rw [relinkInPlace_eq]
  have hgrow : t.grow = (.ok (), t.relink (2 * t.capacity)) := by
    rw [grow, if_neg (Nat.not_le.2 hroom)]
  obtain hgrown | hfull := h.grow_cases
  · obtain ⟨-, t', hgrow', hwf, hcapacity, hbindings, hsize, -, hmax⟩ := hgrown
    have ht' : t' = t.relink (2 * t.capacity) := (Prod.mk.inj (hgrow'.symm.trans hgrow)).2
    subst ht'
    obtain ⟨chain, free, hlaid⟩ := hwf.laid
    refine ⟨hgrow, hcapacity, h.find?_congr hwf hbindings, relink_detached t _, rfl, rfl, hsize,
      hmax, ?_⟩
    intro bucket hbucket
    exact ⟨chain bucket, hlaid.isChain hbucket, hlaid.mem_chain_iff hbucket⟩
  · exact absurd hfull.1 (Nat.ne_of_lt hroom)

/-- **Growing loses and changes nothing**, in any table that calls can bring about, whether all its
slots are in use or not. Where there may be more buckets there are twice as many afterwards, and
linking the entries again in place leaves every key where it was and every slot as it was but for
its link. Then each chain passes the entries that belong there, each of them once, and ends. -/
theorem run_grow_grown (wanted maxWanted : Nat) (calls : List Call) :
    let t := (Calls.run perform (create wanted maxWanted) calls).2
    t.capacity < t.maxCapacity →
      t.grow = (.ok (), t.relinkInPlace (2 * t.capacity)) ∧
        Grown t (t.relinkInPlace (2 * t.capacity)) := by
  intro t hroom
  obtain ⟨-, h⟩ := run_holds wanted maxWanted calls
  exact WellFormed.grow_grown h.wellFormed hroom

/-- A full table of two slots, whose one chain is split. -/
theorem run_grow_grown_split_chain :
    let t := (Calls.run perform (create 2 4) [.set 1 [1] [7], .set 3 [2] [8]]).2
    t.slots.size = t.capacity ∧ t.capacity < t.maxCapacity ∧
      t.buckets = #[none, some 1] ∧
      ∃ t', t.grow = (.ok (), t') ∧ Grown t t' ∧ t'.buckets = #[none, some 0, none, some 1] := by
  intro t
  have hroom : t.capacity < t.maxCapacity := by decide
  obtain ⟨hgrow, hgrown⟩ := run_grow_grown 2 4 [.set 1 [1] [7], .set 3 [2] [8]] hroom
  exact ⟨by decide, hroom, by decide, _, hgrow, hgrown, by decide⟩

end Table
end RespStore
