import RespStore.Proofs.Table.Layout

/-!
# RespStore.Proofs.Table.Relinking

Linking all entries anew when a table grows. The loop goes through the slots in order and puts every
entry at the head of its chain, so after each slot the chains hold the entries that were passed
(`Relinked.step`). What the slots hold and the free list stay as they are (`relink_laid`), and a
table that may grow has room for as many slots again (`grow_cases`).
-/

namespace RespStore.Table

variable {t : Table}

/-- The slots `done` and the buckets are what linking the slots `pre` anew has led to. -/
structure Relinked (count : Nat) (pre : List Slot) (done : Array Slot) (buckets : Array Link)
    (chain : Nat → List Nat) : Prop where
  size : done.size = pre.length
  buckets_size : buckets.size = count
  binding : ∀ i, view Slot.binding? done i = pre[i]?.bind Slot.binding?
  nextFree : ∀ i, view Slot.freeLink? done i = pre[i]?.bind Slot.freeLink?
  chains : ∀ bucket < count,
    Leads (view Slot.entryLink? done) (buckets.getD bucket none) (chain bucket)
  mem_chain : ∀ bucket < count, ∀ i, i ∈ chain bucket ↔
    ∃ b, view Slot.binding? done i = some b ∧ bucketAmong count b.hash = bucket

/-- Both views of a row with one slot more. -/
theorem view_push_eq {α : Type} {f : Slot → Option α} {pre : List Slot} {done : Array Slot}
    {slot slot' : Slot} (hsize : done.size = pre.length) (h : ∀ i, view f done i = pre[i]?.bind f)
    (hslot : f slot' = f slot) (i : Nat) :
    view f (done.push slot') i = (pre ++ [slot])[i]?.bind f := by
  rw [view_push]
  by_cases hi : i = done.size
  · subst hi
    simp [hsize, hslot]
  · have hi' : i ≠ pre.length := hsize ▸ hi
    rw [Function.update_of_ne hi, h]
    rcases Nat.lt_or_gt_of_ne hi' with hlt | hgt
    · rw [List.getElem?_append_left hlt]
    · rw [List.getElem?_eq_none (Nat.le_of_lt hgt), List.getElem?_eq_none (by simp; omega)]

variable {count : Nat} {pre : List Slot} {done : Array Slot} {buckets : Array Link}
  {chain : Nat → List Nat}

/-- Slots on a chain are slots of the row. -/
theorem Relinked.lt_of_mem (h : Relinked count pre done buckets chain) {bucket : Nat}
    (hbucket : bucket < count) {i : Nat} (hi : i ∈ chain bucket) : i < done.size := by
  obtain ⟨b, hb, -⟩ := (h.mem_chain bucket hbucket i).1 hi
  exact lt_of_view (by rw [hb]; rfl)

/-- **Linking one slot more** puts it at the head of its chain. -/
theorem Relinked.step (h : Relinked count pre done buckets chain) (hcount : 0 < count)
    (slot : Slot) :
    ∃ chain', Relinked count (pre ++ [slot]) (relinkSlot (done, buckets) slot).1
      (relinkSlot (done, buckets) slot).2 chain' := by
  have hnotMem {bucket : Nat} (hbucket : bucket < count) : done.size ∉ chain bucket :=
    fun hmem => absurd (h.lt_of_mem hbucket hmem) (Nat.lt_irrefl _)
  have hnone : view Slot.binding? done done.size = none := by simp [view]
  cases slot with
  | vacant link =>
    refine ⟨chain, ⟨by simp [relinkSlot, h.size], h.buckets_size, ?_, ?_, ?_, ?_⟩⟩
    · exact view_push_eq h.size h.binding rfl
    · exact view_push_eq h.size h.nextFree rfl
    · intro bucket hbucket
      dsimp only [relinkSlot]
      rw [view_push]
      exact (h.chains bucket hbucket).update_of_notMem (hnotMem hbucket) _
    · intro bucket hbucket i
      dsimp only [relinkSlot]
      rw [view_push, show Slot.binding? (.vacant link) = none from rfl, ← hnone,
        Function.update_eq_self]
      exact h.mem_chain bucket hbucket i
  | occupied e =>
    have hown := bucketAmong_lt hcount e.hash
    generalize hbucket : bucketAmong count e.hash = own at hown
    refine ⟨Function.update chain own (done.size :: chain own), ⟨?_, ?_, ?_, ?_, ?_, ?_⟩⟩
    · simp [relinkSlot, h.size]
    · simp [relinkSlot, h.buckets_size]
    · exact view_push_eq h.size h.binding rfl
    · exact view_push_eq h.size h.nextFree rfl
    · intro bucket hlt
      dsimp only [relinkSlot]
      rw [view_push, h.buckets_size, hbucket]
      have hpath := (h.chains bucket hlt).update_of_notMem (hnotMem hlt)
        (Slot.entryLink? (.occupied { e with next := buckets.getD own none }))
      by_cases hsame : bucket = own
      · subst hsame
        have hhead : (buckets.setIfInBounds bucket (some done.size)).getD bucket none =
            some done.size := by simp [h.buckets_size, hlt]
        rw [hhead, Function.update_self]
        exact .cons (Function.update_self ..) hpath
      · have hhead : (buckets.setIfInBounds own (some done.size)).getD bucket none =
            buckets.getD bucket none := by simp [Ne.symm hsame]
        rw [hhead, Function.update_of_ne hsame]
        exact hpath
    · intro bucket hlt i
      dsimp only [relinkSlot]
      rw [view_push]
      by_cases hi : i = done.size
      · subst hi
        rw [Function.update_self]
        by_cases hsame : bucket = own
        · subst hsame
          simp [Slot.binding?, Slot.content?, Entry.binding, hbucket]
        · rw [Function.update_of_ne hsame]
          simp [Slot.binding?, Slot.content?, Entry.binding, hbucket, hnotMem hlt, Ne.symm hsame]
      · rw [Function.update_of_ne hi, ← h.mem_chain bucket hlt i]
        by_cases hsame : bucket = own
        · subst hsame
          simp [hi]
        · rw [Function.update_of_ne hsame]

theorem Relinked.foldl (h : Relinked count pre done buckets chain) (hcount : 0 < count)
    (rest : List Slot) :
    ∃ chain', Relinked count (pre ++ rest) (rest.foldl relinkSlot (done, buckets)).1
      (rest.foldl relinkSlot (done, buckets)).2 chain' := by
  induction rest generalizing pre done buckets chain with
  | nil => exact ⟨chain, by simpa using h⟩
  | cons slot rest ih =>
    obtain ⟨chain₁, h₁⟩ := h.step hcount slot
    rw [List.append_cons]
    exact ih h₁

/-- **Linking all entries anew** among any number of buckets keeps what the slots hold. -/
theorem relink_laid {free : List Nat} (h : t.Laid none chain free) (hcount : 0 < count) :
    (t.relink count).bindingAt? = t.bindingAt? ∧ (t.relink count).capacity = count ∧
      (t.relink count).slots.size = t.slots.size ∧
      ∃ chain', (t.relink count).Laid none chain' free := by
  have hstart : Relinked count [] #[] (Array.replicate count none) fun _ => [] := by
    refine ⟨rfl, by simp, by simp [view], by simp [view], ?_, by simp [view]⟩
    intro bucket hlt
    simpa [hlt] using Leads.nil
  obtain ⟨chain', hdone⟩ := hstart.foldl hcount t.slots.toList
  rw [Array.foldl_toList, List.nil_append] at hdone
  generalize hstate : t.slots.foldl relinkSlot (#[], Array.replicate count none) = state at hdone
  have hrelink : t.relink count = { t with slots := state.1, buckets := state.2 } := by
    rw [relink, hstate]
  have hbinding : (t.relink count).bindingAt? = t.bindingAt? := by
    funext i
    rw [hrelink]
    exact (hdone.binding i).trans (by rw [Array.getElem?_toList]; rfl)
  have hnextFree : (t.relink count).freeLink? = t.freeLink? := by
    funext i
    rw [hrelink]
    exact (hdone.nextFree i).trans (by rw [Array.getElem?_toList]; rfl)
  have hcapacity : (t.relink count).capacity = count := by
    rw [hrelink]
    exact hdone.buckets_size
  refine ⟨hbinding, hcapacity, by rw [hrelink]; exact hdone.size, chain', ?_⟩
  rw [hrelink] at hbinding hnextFree hcapacity ⊢
  refine ⟨?_, ?_, hnextFree.symm ▸ h.frees, hnextFree.symm ▸ h.mem_free, h.freeCount⟩
  · rw [hcapacity]
    exact hdone.chains
  · rw [hcapacity]
    intro bucket hlt i
    rw [hdone.mem_chain bucket hlt i]
    simp only [bucketOf, hdone.buckets_size]
    simp [bindingAt?]

/-- **Growing** doubles the buckets, unless there are as many as there may be. -/
theorem WellFormed.grow_cases (h : t.WellFormed) :
    (t.capacity < t.maxCapacity ∧ ∃ t', t.grow = (.ok (), t') ∧ t'.WellFormed ∧
        t'.capacity = 2 * t.capacity ∧ t'.bindingAt? = t.bindingAt? ∧ t'.size = t.size ∧
        t'.slots.size = t.slots.size ∧ t'.maxCapacity = t.maxCapacity) ∨
      (t.capacity = t.maxCapacity ∧ t.grow = (.error (.capacityExceeded t.maxCapacity), t)) := by
  by_cases hfull : t.maxCapacity ≤ t.capacity
  · have hsame := Nat.le_antisymm h.capacity_le hfull
    right
    exact ⟨hsame, by rw [grow, if_pos hfull, hsame]⟩
  · left
    have hlt := Nat.lt_of_not_le hfull
    obtain ⟨chain, free, hlaid⟩ := h.laid
    have hpos := h.capacity_pos
    obtain ⟨hbinding, hcapacity, hslots, chain', hlaid'⟩ :=
      relink_laid hlaid (show 0 < 2 * t.capacity by omega)
    refine ⟨hlt, t.relink (2 * t.capacity), by rw [grow, if_neg hfull], ?_, hcapacity, hbinding,
      rfl, hslots, rfl⟩
    obtain ⟨k, hk⟩ := h.capacity_eq
    obtain ⟨m, hm⟩ := h.maxCapacity_eq
    have hpow : 2 * 2 ^ k = 2 ^ (k + 1) := by rw [Nat.pow_succ, Nat.mul_comm]
    refine ⟨⟨k + 1, by rw [hcapacity, hk, hpow]⟩, ⟨m, hm⟩, ?_, ?_, ?_, ⟨chain', free, hlaid'⟩, ?_⟩
    · rw [hk, hm] at hlt
      have hkm := (Nat.pow_lt_pow_iff_right (by decide)).1 hlt
      rw [hcapacity, hk, hpow]
      exact hm ▸ Nat.pow_le_pow_right (by decide) hkm
    · have := h.slots_le
      rw [hslots, hcapacity]
      omega
    · rw [hslots]
      exact h.size_add
    · rw [hbinding]
      exact h.distinct

end RespStore.Table
