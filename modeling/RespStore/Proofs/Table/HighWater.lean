import RespStore.Proofs.Table.Refinement

/-!
# RespStore.Proofs.Table.HighWater

What a table has come to have in slots and buckets. A slot that was ever used stays with the table,
and a new one is used only when no other is vacant, so there are as many as there were entries when
there were most of them (`peak`). The buckets double only for a slot that they have no room for.

`Stretches` says so of one call, by the counts before and after it. Over a run the counts come to
the peak (`WellFormed.run_stretches`), and calls that stay below it change neither.
-/

namespace RespStore.Table

variable {t t' : Table} {hash : UInt64} {key value : Bytes} {index : Nat}

/-! ### Counts -/

/-- There are buckets enough for the slots. -/
theorem WellFormed.ceil_slots_le (h : t.WellFormed) :
    PowerOfTwo.ceil t.slots.size ≤ t.capacity := by
  obtain ⟨k, hk⟩ := h.capacity_eq
  have hslots := h.slots_le
  rw [hk] at hslots ⊢
  exact PowerOfTwo.ceil_le_two_pow hslots

/-! ### One call -/

/-- The table `t'` is `t` with a slot more if its entries need one, and with buckets enough for its
slots. -/
structure Stretches (t t' : Table) : Prop where
  slots : t'.slots.size = max t.slots.size t'.size
  capacity : t'.capacity = max t.capacity (PowerOfTwo.ceil t'.slots.size)

/-- What leaves the slots and the buckets alone, and has a slot for every entry. -/
theorem WellFormed.stretches_of_same (h : t.WellFormed) (hslots : t'.slots.size = t.slots.size)
    (hcapacity : t'.capacity = t.capacity) (hsize : t'.size ≤ t.slots.size) : t.Stretches t' where
  slots := by rw [hslots, max_eq_left hsize]
  capacity := by rw [hslots, hcapacity, max_eq_left h.ceil_slots_le]

/-- A slot that was never used comes with twice the buckets if there are slots in all of them. -/
theorem WellFormed.freshSlot_counts (h : t.WellFormed) (hfresh : t.freshSlot = (.ok index, t')) :
    t'.slots.size = t.slots.size + 1 ∧
      t'.capacity = max t.capacity (PowerOfTwo.ceil (t.slots.size + 1)) := by
  obtain ⟨k, hk⟩ := h.capacity_eq
  simp only [freshSlot] at hfresh
  by_cases hfull : t.slots.size = t.capacity
  · rw [if_pos hfull] at hfresh
    rcases h.grow_cases with ⟨-, t₁, hgrow, -, hcapacity, -, -, hslots, -⟩ | ⟨-, hgrow⟩
    · rw [hgrow] at hfresh
      cases hfresh
      refine ⟨by simp [extend, hslots], ?_⟩
      show t₁.capacity = _
      rw [hcapacity, hfull, hk, PowerOfTwo.ceil_two_pow_add_one, Nat.pow_succ, Nat.mul_comm]
      exact (max_eq_right (Nat.le_mul_of_pos_right _ (by decide))).symm
    · rw [hgrow] at hfresh
      cases hfresh
  · rw [if_neg hfull] at hfresh
    cases hfresh
    refine ⟨by simp [extend], ?_⟩
    have hroom : t.slots.size + 1 ≤ 2 ^ k := hk ▸ Nat.lt_of_le_of_ne h.slots_le hfull
    show t.capacity = _
    rw [hk]
    exact (max_eq_left (PowerOfTwo.ceil_le_two_pow hroom)).symm

/-- **A slot is used for the first time only if every other has an entry.** -/
theorem WellFormed.takeSlot_counts (h : t.WellFormed) (htake : t.takeSlot = (.ok index, t')) :
    t'.slots.size = max t.slots.size (t.size + 1) ∧
      t'.capacity = max t.capacity (PowerOfTwo.ceil t'.slots.size) := by
  have hadd := h.size_add
  obtain ⟨chain, free, hlaid⟩ := h.laid
  cases hhead : t.freeHead with
  | some first =>
    obtain ⟨nextFree, rest, -, hslot, -, hcount⟩ := hlaid.of_freeHead hhead
    simp only [takeSlot, hhead, hslot] at htake
    cases htake
    exact ⟨by dsimp only; omega, (max_eq_left h.ceil_slots_le).symm⟩
  | none =>
    have hcount := hlaid.freeCount_of_none hhead
    simp only [takeSlot, hhead] at htake
    obtain ⟨hslots, hcapacity⟩ := h.freshSlot_counts htake
    rw [hslots]
    exact ⟨by omega, hcapacity⟩

theorem WellFormed.stretches_set (h : t.WellFormed) (hash : UInt64) (key value : Bytes) :
    t.Stretches (t.set hash key value).2 := by
  rw [set]
  cases t.find? hash key with
  | some index => exact h.stretches_of_same Array.size_modify rfl h.size_le_slots
  | none =>
    rcases h.takeSlot_cases with ⟨-, index, t', htake, hreserved⟩ | ⟨-, htake⟩
    · obtain ⟨hslots, hcapacity⟩ := h.takeSlot_counts htake
      simp only [htake]
      refine ⟨?_, ?_⟩
      · show _ = max _ (t'.size + 1)
        rw [slots_size_place, hslots, hreserved.size]
      · rw [slots_size_place, capacity_place, hcapacity]
    · simp only [htake]
      exact h.stretches_of_same rfl rfl h.size_le_slots

theorem WellFormed.stretches_erase (h : t.WellFormed) (hash : UInt64) (key : Bytes) :
    t.Stretches (t.erase hash key).2 := by
  have hsize := h.size_le_slots
  rw [erase]
  cases t.locate? hash key with
  | none => exact h.stretches_of_same rfl rfl hsize
  | some p =>
    refine h.stretches_of_same (by simp) (by simp) ?_
    show (t.unlink hash p).size - 1 ≤ _
    rw [size_unlink]
    omega

/-- **What one call does to the slots and the buckets.** -/
theorem WellFormed.stretches_perform (h : t.WellFormed) (call : Call) :
    t.Stretches (t.perform call).2 := by
  cases call with
  | set hash key value => exact h.stretches_set hash key value
  | get hash key => exact h.stretches_of_same rfl rfl h.size_le_slots
  | erase hash key => exact h.stretches_erase hash key

theorem WellFormed.perform (h : t.WellFormed) (call : Call) : (t.perform call).2.WellFormed := by
  cases call with
  | set hash key value =>
    rcases h.set_cases hash key value with
      ⟨_, t', -, hset, hbinds, -⟩ | ⟨t', -, -, hset, hbinds, -⟩ | ⟨-, -, hset⟩
    · simpa [Table.perform, hset] using hbinds.wellFormed
    · simpa [Table.perform, hset] using hbinds.wellFormed
    · simpa [Table.perform, hset] using h
  | get hash key => exact h
  | erase hash key =>
    rcases h.erase_cases hash key with ⟨_, t', -, herase, hbinds, -⟩ | ⟨-, herase⟩
    · simpa [Table.perform, herase] using hbinds.wellFormed
    · simpa [Table.perform, herase] using h

/-! ### Runs of calls -/

/-- The most entries that there are at any time of a run. -/
def peak (t : Table) : List Call → Nat
  | [] => t.size
  | call :: calls => max t.size ((t.perform call).2.peak calls)

theorem size_le_peak (t : Table) (calls : List Call) : t.size ≤ t.peak calls := by
  cases calls with
  | nil => exact Nat.le_refl _
  | cons call calls => exact Nat.le_max_left ..

/-- **Over a run the slots come to the peak**, and the buckets to what the slots ask for. -/
theorem WellFormed.run_stretches (h : t.WellFormed) (calls : List Call) :
    (Calls.run Table.perform t calls).2.slots.size = max t.slots.size (t.peak calls) ∧
      (Calls.run Table.perform t calls).2.capacity =
        max t.capacity (PowerOfTwo.ceil (Calls.run Table.perform t calls).2.slots.size) := by
  induction calls generalizing t with
  | nil => exact ⟨(max_eq_left h.size_le_slots).symm, (max_eq_left h.ceil_slots_le).symm⟩
  | cons call calls ih =>
    obtain ⟨hslots, hcapacity⟩ := ih (h.perform call)
    have hstep := h.stretches_perform call
    have hpeak : t.peak (call :: calls) = max t.size ((t.perform call).2.peak calls) := rfl
    rw [Calls.run_cons]
    generalize (t.perform call).2 = next at *
    generalize (Calls.run Table.perform next calls).2 = last at *
    refine ⟨?_, ?_⟩
    · have := h.size_le_slots
      have := next.size_le_peak calls
      have := hstep.slots
      omega
    · -- the slots never become fewer, so what they ask for in the end is the most they ever did
      have hmono : PowerOfTwo.ceil next.slots.size ≤ PowerOfTwo.ceil last.slots.size :=
        PowerOfTwo.ceil_mono (hslots ▸ Nat.le_max_left ..)
      rw [hcapacity, hstep.capacity, max_assoc, max_eq_right hmono]

/-- Calls that do not lead above the slots there are leave the table with these slots and with its
buckets. -/
theorem WellFormed.run_below (h : t.WellFormed) {calls : List Call}
    (hpeak : t.peak calls ≤ t.slots.size) :
    (Calls.run Table.perform t calls).2.slots.size = t.slots.size ∧
      (Calls.run Table.perform t calls).2.capacity = t.capacity := by
  obtain ⟨hslots, hcapacity⟩ := h.run_stretches calls
  rw [max_eq_left hpeak] at hslots
  rw [hslots, max_eq_left h.ceil_slots_le] at hcapacity
  exact ⟨hslots, hcapacity⟩

/-- **A table grows only at a new peak.** After any run of calls there are as many slots as there
were entries at the peak. Those that have no entry now are free, and there are buckets for the slots
and for what the table was created with, no more. The buckets never become fewer. And calls that
lead to no more entries than the peak, however they remove and insert, use no further slot and
double no buckets. -/
theorem run_peak (wanted maxWanted : Nat) (calls : List Call) :
    let most := (create wanted maxWanted).peak calls
    let t := (Calls.run perform (create wanted maxWanted) calls).2
    t.slots.size = most ∧ t.size ≤ most ∧ t.freeCount = most - t.size ∧
      t.capacity = max (roundCapacity wanted (roundMax maxWanted)) (PowerOfTwo.ceil most) ∧
      t.capacity ≤ roundMax maxWanted ∧
      (∀ later, t.capacity ≤ (Calls.run perform t later).2.capacity) ∧
      ∀ later, t.peak later ≤ most →
        (Calls.run perform t later).2.slots.size = t.slots.size ∧
          (Calls.run perform t later).2.capacity = t.capacity := by
  intro most t
  obtain ⟨-, hholds⟩ := run_holds wanted maxWanted calls
  have hwf : t.WellFormed := hholds.wellFormed
  obtain ⟨hslots, hcapacity⟩ := (wellFormed_create wanted maxWanted).run_stretches calls
  have hmost : t.slots.size = most := hslots.trans (Nat.zero_max _)
  have hsize := hwf.size_add
  refine ⟨hmost, by omega, by omega, ?_, ?_, ?_, ?_⟩
  · rw [← hmost, ← capacity_create]
    exact hcapacity
  · exact hholds.maxCapacity ▸ hwf.capacity_le
  · intro later
    rw [(hwf.run_stretches later).2]
    exact Nat.le_max_left ..
  · intro later hpeak
    exact hwf.run_below (hmost ▸ hpeak)

/-- Three entries at the peak, and then a run that replaces them one after the other. -/
theorem run_peak_churn :
    let calls : List Call := [.set 1 [] [], .set 2 [] [], .set 3 [] []]
    let later : List Call := [.erase 2 [], .set 4 [] [], .erase 1 [], .set 5 [] []]
    let t := (Calls.run perform (create 1 8) calls).2
    t.peak later ≤ (create 1 8).peak calls ∧
      (Calls.run perform t later).2.slots.size = t.slots.size ∧
      (Calls.run perform t later).2.capacity = t.capacity := by
  obtain ⟨-, -, -, -, -, -, hlater⟩ := run_peak 1 8 [.set 1 [] [], .set 2 [] [], .set 3 [] []]
  exact ⟨by decide, hlater [.erase 2 [], .set 4 [] [], .erase 1 [], .set 5 [] []] (by decide)⟩

end RespStore.Table
