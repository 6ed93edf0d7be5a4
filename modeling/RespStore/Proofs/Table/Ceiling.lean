import RespStore.Proofs.Table.Refinement

/-!
# RespStore.Proofs.Table.Ceiling

What a full table does with a new key. `Full` is what `takeSlot` runs into, one way after the other:
there is no slot on the free list, none that was never used, and the buckets may not be doubled. In
a table that calls can bring about, this comes to one count (`WellFormed.full_iff`): as many entries
as there may be slots.

A full table refuses a new key and stays as it is (`WellFormed.set_of_full`). Removing an entry
makes room for one new key, whichever that is, and then the table is full again
(`WellFormed.erase_of_full`).
-/

namespace RespStore.Table

variable {t : Table} {hash : UInt64} {key : Bytes}

/-! ### Full tables -/

/-- There is no slot for another entry. -/
structure Full (t : Table) : Prop where
  noneFree : t.freeHead = none
  allUsed : t.slots.size = t.capacity
  grown : t.maxCapacity ≤ t.capacity

/-- The head of the free list is missing when nothing is on it, and only then. -/
theorem WellFormed.freeHead_eq_none_iff (h : t.WellFormed) :
    t.freeHead = none ↔ t.freeCount = 0 := by
  obtain ⟨chain, free, hlaid⟩ := h.laid
  constructor
  · exact hlaid.freeCount_of_none
  · intro hnone
    cases hhead : t.freeHead with
    | none => rfl
    | some index =>
      obtain ⟨_, _, -, -, -, hcount⟩ := hlaid.of_freeHead hhead
      omega

/-- **A table is full when it has as many entries as there may be slots.** -/
theorem WellFormed.full_iff (h : t.WellFormed) : t.Full ↔ t.size = t.maxCapacity := by
  -- entries and free slots are all the slots there are
  have hadd := h.size_add
  have hslots := h.slots_le
  have hcapacity := h.capacity_le
  constructor
  · intro hfull
    have hused := hfull.allUsed
    have hgrown := hfull.grown
    have hfree := h.freeHead_eq_none_iff.1 hfull.noneFree
    omega
  · intro hsize
    exact ⟨h.freeHead_eq_none_iff.2 (by omega), by omega, by omega⟩

/-! ### New keys -/

/-- A full table refuses a new key and stays as it is. -/
theorem WellFormed.set_of_full (h : t.WellFormed) (hfull : t.Full)
    (habsent : t.get? hash key = none) (value : Bytes) :
    t.set hash key value = (.error (.capacityExceeded t.maxCapacity), t) := by
  have hsize := h.full_iff.1 hfull
  rcases h.set_cases hash key value with
    ⟨old, t', hold, -⟩ | ⟨t', -, hroom, -⟩ | ⟨-, -, hset⟩
  · simp [habsent] at hold
  · exact absurd hsize (Nat.ne_of_lt hroom)
  · exact hset

/-- A table that is not full takes a new key. -/
theorem WellFormed.set_of_not_full (h : t.WellFormed) (hroom : ¬t.Full)
    (habsent : t.get? hash key = none) (value : Bytes) :
    ∃ t', t.set hash key value = (.ok .inserted, t') ∧ t.Binds hash key (some value) t' ∧
      t'.size = t.size + 1 := by
  rcases h.set_cases hash key value with
    ⟨old, t', hold, -⟩ | ⟨t', -, -, hset, hbinds, hsize⟩ | ⟨-, hfull, -⟩
  · simp [habsent] at hold
  · exact ⟨t', hset, hbinds, hsize⟩
  · exact absurd (h.full_iff.2 hfull) hroom

/-- **A write is refused** when its key is new and the table full, and for no other reason. -/
theorem WellFormed.set_eq_error_iff (h : t.WellFormed) (value : Bytes) :
    (∃ error, (t.set hash key value).1 = .error error) ↔ t.get? hash key = none ∧ t.Full := by
  constructor
  · intro hrefused
    obtain ⟨error, herror⟩ := hrefused
    rcases h.set_cases hash key value with
      ⟨old, t', -, hset, -⟩ | ⟨t', -, -, hset, -⟩ | ⟨habsent, hsize, -⟩
    · simp [hset] at herror
    · simp [hset] at herror
    · exact ⟨habsent, h.full_iff.2 hsize⟩
  · intro hnew
    exact ⟨_, congrArg Prod.fst (h.set_of_full hnew.2 hnew.1 value)⟩

/-- **Removing an entry of a full table makes room for one.** Any key that is then absent is taken,
and with it the table is full again. -/
theorem WellFormed.erase_of_full (h : t.WellFormed) (hfull : t.Full)
    (hpresent : t.get? hash key ≠ none) :
    ∃ t', t.erase hash key = (true, t') ∧ ∀ hash' key' value, t'.get? hash' key' = none →
      ∃ t'', t'.set hash' key' value = (.ok .inserted, t'') ∧
        t'.Binds hash' key' (some value) t'' ∧ t''.Full := by
  have hsize := h.full_iff.1 hfull
  rcases h.erase_cases hash key with ⟨old, t', -, herase, hbinds, hsize'⟩ | ⟨habsent, -⟩
  · have hmax := hbinds.maxCapacity
    have hroom : ¬t'.Full := by
      rw [hbinds.wellFormed.full_iff]
      omega
    refine ⟨t', herase, ?_⟩
    intro hash' key' value habsent
    obtain ⟨t'', hset, hbinds', hsize''⟩ :=
      hbinds.wellFormed.set_of_not_full hroom habsent value
    refine ⟨t'', hset, hbinds', hbinds'.wellFormed.full_iff.2 ?_⟩
    rw [hbinds'.maxCapacity]
    omega
  · exact absurd habsent hpresent

/-! ### Runs of calls -/

/-- **A write fails exactly at the ceiling, and changes nothing.** After any run of calls a write is
refused when its key is absent and there are as many entries as the table was given room for, which
is when it is full. The refusal names that number. The table is the same as before in every part, so
whatever is asked of it later is answered as if the call had not been made; and removing an entry
makes room for one new key. -/
theorem run_set_refuses (wanted maxWanted : Nat) (calls : List Call) (hash : UInt64)
    (key value : Bytes) :
    let room := roundMax maxWanted
    let t := (Calls.run perform (create wanted maxWanted) calls).2
    (t.Full ↔ t.size = room) ∧
      ((∃ error, (t.set hash key value).1 = .error error) ↔
        t.get? hash key = none ∧ t.size = room) ∧
      (t.get? hash key = none → t.size = room →
        t.set hash key value = (.error (.capacityExceeded room), t) ∧
          (∀ later, Calls.run perform t (.set hash key value :: later) =
            (.stored (.error (.capacityExceeded room)) :: (Calls.run perform t later).1,
              (Calls.run perform t later).2)) ∧
          ∀ hash₁ key₁, t.get? hash₁ key₁ ≠ none → ∃ t₁, t.erase hash₁ key₁ = (true, t₁) ∧
            ∀ hash₂ key₂ value₂, t₁.get? hash₂ key₂ = none →
              ∃ t₂, t₁.set hash₂ key₂ value₂ = (.ok .inserted, t₂) ∧
                t₁.Binds hash₂ key₂ (some value₂) t₂ ∧ t₂.Full) := by
  intro room t
  obtain ⟨-, hholds⟩ := run_holds wanted maxWanted calls
  have hwf : t.WellFormed := hholds.wellFormed
  have hmax : t.maxCapacity = room := hholds.maxCapacity
  have hfull_iff : t.Full ↔ t.size = room := hmax ▸ hwf.full_iff
  refine ⟨hfull_iff, ?_, ?_⟩
  · rw [hwf.set_eq_error_iff, hfull_iff]
  · intro habsent hsize
    have hfull := hfull_iff.2 hsize
    have hset : t.set hash key value = (.error (.capacityExceeded room), t) :=
      hmax ▸ hwf.set_of_full hfull habsent value
    refine ⟨hset, ?_, ?_⟩
    · intro later
      simp only [Calls.run_cons, perform, hset]
    · intro hash₁ key₁ hpresent
      exact hwf.erase_of_full hfull hpresent

/-- Room for two: the third key is refused, whatever was asked for before. -/
theorem run_set_refuses_third_key :
    let t := (Calls.run perform (create 1 2) [.set 5 [1] [7], .set 9 [1] [8], .set 5 [1] []]).2
    t.Full ∧ t.set 5 [2] [9] = (.error (.capacityExceeded 2), t) := by
  obtain ⟨hfull_iff, -, hrefused⟩ :=
    run_set_refuses 1 2 [.set 5 [1] [7], .set 9 [1] [8], .set 5 [1] []] 5 [2] [9]
  exact ⟨hfull_iff.2 (by decide), (hrefused (by decide) (by decide)).1⟩

end RespStore.Table
