import Mathlib.Data.List.Perm.Subperm
import RespStore.Proofs.PowerOfTwo
import RespStore.Proofs.Table.Path

/-!
# RespStore.Proofs.Table.Layout

How a table is laid out in its slots. Each operation writes to a slot or two, so everything about
slots is stated through views of the whole row (`view`), which a write changes at one index.

`Laid` describes the lists: following a bucket passes the slots that are occupied under a hash of
that bucket, and following the free list passes the vacant slots. One slot may be loose, which
means that it is on no list while an operation works on it. A table is `WellFormed` when no slot is
loose, the counts are right, and no two entries are for the same key.

In a well-formed table looking up finds what the slots hold, wherever it is (`find?_eq_some_iff`,
`get?_eq_some_iff`). So a change of the table is described by what it does to the slots, and
`Binds` is what a change comes to for those who look up keys: one key has another value, and all
others are as before (`Binds.of_update`).
-/

namespace RespStore

/-- What an entry says, wherever it is linked. -/
structure Binding where
  hash : UInt64
  key : Bytes
  value : Bytes
  deriving Repr, DecidableEq

/-- What the entry says. -/
def Entry.binding (e : Entry) : Binding := ⟨e.hash, e.key.bytes, e.value.bytes⟩

theorem Entry.binding_eq_iff {e : Entry} {hash : UInt64} {key value : Bytes} :
    e.binding = ⟨hash, key, value⟩ ↔ e.isFor hash key = true ∧ e.value.bytes = value := by
  simp [isFor, binding, and_assoc]

namespace Slot

/-- The link of the entry in the slot. -/
def entryLink? (s : Slot) : Option Link := s.content?.map Entry.next

/-- What the entry in the slot says. -/
def binding? (s : Slot) : Option Binding := s.content?.map Entry.binding

/-- The link of a vacant slot. -/
def freeLink? : Slot → Option Link
  | .occupied _ => none
  | .vacant link => some link

end Slot

namespace Table

/-! ### Views -/

/-- What `f` makes of each slot. -/
def view {α : Type} (f : Slot → Option α) (slots : Array Slot) (index : Nat) : Option α :=
  slots[index]?.bind f

section View

variable {α : Type} {f : Slot → Option α} {slots : Array Slot}

theorem lt_of_view {index : Nat} (h : (view f slots index).isSome) : index < slots.size := by
  by_contra hge
  simp [view, Array.getElem?_eq_none (Nat.le_of_not_lt hge)] at h

theorem view_setIfInBounds {index : Nat} (h : index < slots.size) (slot : Slot) :
    view f (slots.setIfInBounds index slot) = Function.update (view f slots) index (f slot) := by
  funext i
  by_cases hi : i = index
  · subst hi
    simp [view, h]
  · simp [view, Function.update_of_ne hi, Ne.symm hi]

theorem view_push (slot : Slot) :
    view f (slots.push slot) = Function.update (view f slots) slots.size (f slot) := by
  funext i
  by_cases hi : i = slots.size
  · subst hi
    simp [view]
  · simp [view, Array.getElem?_push, hi]

/-- Changing an entry shows in a view where that looks at what was changed. -/
theorem view_modify (index : Nat) (g : Slot → Slot) :
    view f (slots.modify index g) =
      Function.update (view f slots) index (slots[index]?.bind fun s => f (g s)) := by
  funext i
  by_cases hi : i = index
  · subst hi
    simp only [view, Array.getElem?_modify, if_true, Option.bind_map, Function.update_self]
    rfl
  · simp [view, Array.getElem?_modify, Function.update_of_ne hi, Ne.symm hi]

end View

/-- The link of the entry at an index. -/
def entryLink? (t : Table) : Nat → Option Link := view Slot.entryLink? t.slots

/-- What the entry at an index says. -/
def bindingAt? (t : Table) : Nat → Option Binding := view Slot.binding? t.slots

/-- The link of the vacant slot at an index. -/
def freeLink? (t : Table) : Nat → Option Link := view Slot.freeLink? t.slots

section Entries

variable {t : Table} {index : Nat}

theorem entryLink?_eq_map (t : Table) (index : Nat) :
    t.entryLink? index = (t.entryAt? index).map Entry.next := by
  simp only [entryLink?, view, entryAt?, Option.map_bind]
  rfl

theorem bindingAt?_eq_map (t : Table) (index : Nat) :
    t.bindingAt? index = (t.entryAt? index).map Entry.binding := by
  simp only [bindingAt?, view, entryAt?, Option.map_bind]
  rfl

theorem bindingAt?_eq_some_iff {b : Binding} :
    t.bindingAt? index = some b ↔ ∃ e, t.entryAt? index = some e ∧ e.binding = b := by
  rw [bindingAt?_eq_map, Option.map_eq_some_iff]

/-- A slot is occupied or vacant. -/
theorem isSome_bindingAt?_iff :
    (t.bindingAt? index).isSome ↔ index < t.slots.size ∧ t.freeLink? index = none := by
  by_cases hlt : index < t.slots.size
  · simp only [bindingAt?, freeLink?, view, Array.getElem?_eq_getElem hlt, Option.bind_some, hlt,
      true_and]
    cases t.slots[index] <;> simp [Slot.binding?, Slot.content?, Slot.freeLink?]
  · simp [bindingAt?, view, hlt]

theorem freeLink?_eq_some_iff {link : Link} :
    t.freeLink? index = some link ↔ t.slots[index]? = some (.vacant link) := by
  rw [freeLink?, view, Option.bind_eq_some_iff]
  constructor
  · intro hex
    obtain ⟨slot, hslot, hlink⟩ := hex
    cases slot with
    | occupied e => cases hlink
    | vacant nextFree =>
      cases hlink
      exact hslot
  · intro hslot
    exact ⟨_, hslot, rfl⟩

end Entries

/-! ### Lists -/

/-- The buckets lead through the entries, and the free list through the vacant slots. The slot
`loose`, if there is one, is on none of the lists. -/
structure Laid (t : Table) (loose : Option Nat) (chain : Nat → List Nat) (free : List Nat) :
    Prop where
  chains : ∀ bucket < t.capacity,
    Leads t.entryLink? (t.buckets.getD bucket none) (chain bucket)
  mem_chain : ∀ bucket < t.capacity, ∀ index, index ∈ chain bucket ↔
    loose ≠ some index ∧ ∃ b, t.bindingAt? index = some b ∧ t.bucketOf b.hash = bucket
  frees : Leads t.freeLink? t.freeHead free
  mem_free : ∀ index, index ∈ free ↔ loose ≠ some index ∧ (t.freeLink? index).isSome
  freeCount : t.freeCount = free.length

/-- No two entries are for the same key. -/
def Distinct (bindings : Nat → Option Binding) : Prop :=
  ∀ i j b c, bindings i = some b → bindings j = some c → b.hash = c.hash → b.key = c.key → i = j

/-- The table is in a state that its operations keep. -/
structure WellFormed (t : Table) : Prop where
  capacity_eq : ∃ k, t.capacity = 2 ^ k
  maxCapacity_eq : ∃ k, t.maxCapacity = 2 ^ k
  capacity_le : t.capacity ≤ t.maxCapacity
  slots_le : t.slots.size ≤ t.capacity
  size_add : t.size + t.freeCount = t.slots.size
  laid : ∃ chain free, t.Laid none chain free
  distinct : Distinct t.bindingAt?

variable {t : Table} {hash : UInt64} {key : Bytes}

/-- Where the free list leads to a slot, that slot is vacant and the list goes on from there. -/
theorem Laid.of_freeHead {loose : Option Nat} {chain : Nat → List Nat} {free : List Nat}
    (h : t.Laid loose chain free) {index : Nat} (hhead : t.freeHead = some index) :
    ∃ link rest, free = index :: rest ∧ t.slots[index]? = some (.vacant link) ∧
      Leads t.freeLink? link rest ∧ t.freeCount = rest.length + 1 := by
  have hfrees := h.frees
  rw [hhead] at hfrees
  obtain ⟨link, rest, rfl, hnext, hrest⟩ := hfrees.of_some
  exact ⟨link, rest, rfl, freeLink?_eq_some_iff.1 hnext, hrest, h.freeCount⟩

theorem Laid.freeCount_of_none {loose : Option Nat} {chain : Nat → List Nat} {free : List Nat}
    (h : t.Laid loose chain free) (hhead : t.freeHead = none) : t.freeCount = 0 := by
  have hfrees := h.frees
  rw [hhead] at hfrees
  rw [h.freeCount, hfrees.of_none]
  rfl

theorem WellFormed.capacity_pos (h : t.WellFormed) : 0 < t.capacity := by
  obtain ⟨k, hk⟩ := h.capacity_eq
  rw [hk]
  exact Nat.two_pow_pos k

theorem WellFormed.bucketOf_lt (h : t.WellFormed) (hash : UInt64) :
    t.bucketOf hash < t.capacity := bucketAmong_lt h.capacity_pos hash

theorem WellFormed.size_le_slots (h : t.WellFormed) : t.size ≤ t.slots.size :=
  h.size_add ▸ Nat.le_add_right ..

theorem WellFormed.size_le (h : t.WellFormed) : t.size ≤ t.maxCapacity :=
  Nat.le_trans h.size_le_slots (Nat.le_trans h.slots_le h.capacity_le)

/-! ### Looking up -/

/-- A path through slots of the row is no longer than the row. -/
theorem length_le_of_leads {next : Nat → Option Link} {link : Link} {path : List Nat} {n : Nat}
    (h : Leads next link path) (hlt : ∀ index ∈ path, index < n) : path.length ≤ n := by
  have hsub : path ⊆ List.range n := fun index hmem => List.mem_range.2 (hlt index hmem)
  simpa using (List.subperm_of_subset h.nodup hsub).length_le

/-- **Following a chain** comes to the first entry for the key, or finds that there is none. -/
theorem follow_cases {link : Link} {path : List Nat} (h : Leads t.entryLink? link path)
    (hash : UInt64) (key : Bytes) {steps : Nat} (hsteps : path.length ≤ steps) (previous : Link) :
    (∃ front index rest e, path = front ++ index :: rest ∧ t.entryAt? index = some e ∧
        e.isFor hash key = true ∧
        t.follow hash key steps previous link =
          some ⟨index, front.getLast?.or previous, e.next⟩) ∨
      (∀ index ∈ path, ∀ e, t.entryAt? index = some e → ¬e.isFor hash key = true) ∧
        t.follow hash key steps previous link = none := by
  induction h generalizing steps previous with
  | nil =>
    right
    cases steps <;> simp [follow]
  | @cons index link path hnext _ ih =>
    obtain ⟨e, he, rfl⟩ : ∃ e, t.entryAt? index = some e ∧ e.next = link := by
      rwa [entryLink?_eq_map, Option.map_eq_some_iff] at hnext
    cases steps with
    | zero => simp at hsteps
    | succ steps =>
      simp only [follow, he]
      by_cases hfor : e.isFor hash key = true
      · left
        exact ⟨[], index, path, e, rfl, he, hfor, by simp [hfor]⟩
      · rw [if_neg hfor]
        rcases ih (by simpa using hsteps) (some index) with
          ⟨front, found, rest, e', rfl, he', hfor', hfollow⟩ | ⟨hnone, hfollow⟩
        · left
          refine ⟨index :: front, found, rest, e', rfl, he', hfor', ?_⟩
          rw [hfollow, List.getLast?_cons]
          cases front.getLast? <;> simp
        · right
          refine ⟨?_, hfollow⟩
          intro i hi e' he'
          rcases List.mem_cons.1 hi with rfl | hi
          · rw [he, Option.some.injEq] at he'
            rwa [← he']
          · exact hnone i hi e' he'

/-- **Where a key is found**: in the chain of its bucket, at the one entry for it. -/
theorem WellFormed.locate_cases (h : t.WellFormed) {chain : Nat → List Nat} {free : List Nat}
    (hlaid : t.Laid none chain free) (hash : UInt64) (key : Bytes) :
    (∃ front index rest e, chain (t.bucketOf hash) = front ++ index :: rest ∧
        t.entryAt? index = some e ∧ e.isFor hash key = true ∧
        t.locate? hash key = some ⟨index, front.getLast?, e.next⟩) ∨
      (∀ index value, t.bindingAt? index ≠ some ⟨hash, key, value⟩) ∧
        t.locate? hash key = none := by
  have hlt := h.bucketOf_lt hash
  have hmem := hlaid.mem_chain _ hlt
  have hlen : (chain (t.bucketOf hash)).length ≤ t.slots.size := by
    refine length_le_of_leads (hlaid.chains _ hlt) ?_
    intro index hindex
    obtain ⟨-, b, hb, -⟩ := (hmem index).1 hindex
    exact lt_of_view (f := Slot.binding?) (by simp [show view Slot.binding? _ _ = _ from hb])
  rcases follow_cases (hlaid.chains _ hlt) hash key hlen none with
    ⟨front, index, rest, e, hchain, he, hfor, hfollow⟩ | ⟨hnone, hfollow⟩
  · left
    refine ⟨front, index, rest, e, hchain, he, hfor, ?_⟩
    rw [locate?, head, hfollow, Option.or_none]
  · right
    refine ⟨?_, hfollow⟩
    intro index value hb
    obtain ⟨e, he, hbinding⟩ := bindingAt?_eq_some_iff.1 hb
    have hin : index ∈ chain (t.bucketOf hash) :=
      (hmem index).2 ⟨by simp, _, hb, rfl⟩
    exact hnone index hin e he (Entry.binding_eq_iff.1 hbinding).1

theorem WellFormed.find?_eq_some_iff (h : t.WellFormed) {index : Nat} :
    t.find? hash key = some index ↔ ∃ value, t.bindingAt? index = some ⟨hash, key, value⟩ := by
  obtain ⟨chain, free, hlaid⟩ := h.laid
  rcases h.locate_cases hlaid hash key with
    ⟨front, found, rest, e, -, he, hfor, hlocate⟩ | ⟨hnone, hlocate⟩
  · have hfound : t.bindingAt? found = some ⟨hash, key, e.value.bytes⟩ :=
      bindingAt?_eq_some_iff.2 ⟨e, he, Entry.binding_eq_iff.2 ⟨hfor, rfl⟩⟩
    rw [find?, hlocate, Option.map_some, Option.some.injEq]
    constructor
    · intro heq
      subst heq
      exact ⟨_, hfound⟩
    · intro hex
      obtain ⟨value, hindex⟩ := hex
      exact h.distinct _ _ _ _ hfound hindex rfl rfl
  · rw [find?, hlocate]
    simp [hnone]

/-- **Looking up a key gives the value that some slot holds for it.** -/
theorem WellFormed.get?_eq_some_iff (h : t.WellFormed) {value : Bytes} :
    t.get? hash key = some value ↔ ∃ index, t.bindingAt? index = some ⟨hash, key, value⟩ := by
  simp only [get?, Option.bind_eq_bind, Option.bind_eq_some_iff, h.find?_eq_some_iff,
    bindingAt?_eq_some_iff, Entry.binding_eq_iff]
  constructor
  · rintro ⟨index, ⟨_, e, he, hfor, rfl⟩, e', he', hvalue⟩
    rw [he, Option.some.injEq] at he'
    subst he'
    exact ⟨index, e, he, hfor, Option.some.inj hvalue⟩
  · intro hex
    obtain ⟨index, e, he, hfor, rfl⟩ := hex
    exact ⟨index, ⟨_, e, he, hfor, rfl⟩, e, he, rfl⟩

theorem WellFormed.get?_eq_none_iff (h : t.WellFormed) :
    t.get? hash key = none ↔ ∀ index value, t.bindingAt? index ≠ some ⟨hash, key, value⟩ := by
  rw [Option.eq_none_iff_forall_ne_some]
  simp only [ne_eq, h.get?_eq_some_iff, not_exists]
  exact forall_comm

/-! ### Tables without entries -/

@[simp] theorem capacity_create (wanted maxWanted : Nat) :
    (create wanted maxWanted).capacity = roundCapacity wanted (roundMax maxWanted) :=
  Array.size_replicate

theorem roundMax_le (wanted : Nat) : roundMax wanted ≤ ceiling := by
  have hceiling : ceiling = 2 ^ 28 := by decide
  rw [roundMax, hceiling]
  exact PowerOfTwo.ceil_le_two_pow (by omega)

theorem wellFormed_create (wanted maxWanted : Nat) : (create wanted maxWanted).WellFormed := by
  have hbinding : ∀ index, (create wanted maxWanted).bindingAt? index = none := by
    intro index
    simp [bindingAt?, view, create]
  have hcapacity := capacity_create wanted maxWanted
  refine ⟨?_, PowerOfTwo.ceil_eq_two_pow _, ?_, ?_, rfl, ⟨fun _ => [], [], ?_⟩, ?_⟩
  · rw [hcapacity]
    exact PowerOfTwo.ceil_eq_two_pow _
  · rw [hcapacity]
    obtain ⟨k, hk⟩ := PowerOfTwo.ceil_eq_two_pow (max 1 (min ceiling maxWanted))
    have hpos : 0 < 2 ^ k := Nat.two_pow_pos k
    have hle : max 1 (min (roundMax maxWanted) wanted) ≤ 2 ^ k := by
      rw [roundMax, hk]
      omega
    show PowerOfTwo.ceil (max 1 (min (roundMax maxWanted) wanted)) ≤
      PowerOfTwo.ceil (max 1 (min ceiling maxWanted))
    rw [hk]
    exact PowerOfTwo.ceil_le_two_pow hle
  · simp [create]
  · refine ⟨?_, ?_, .nil, ?_, rfl⟩
    · intro bucket hlt
      have hhead : (create wanted maxWanted).buckets.getD bucket none = none := by
        simp only [create, Array.getD_eq_getD_getElem?, Array.getElem?_replicate]
        split <;> rfl
      rw [hhead]
      exact .nil
    · simp [hbinding]
    · simp [freeLink?, view, create]
  · intro i j b c hi
    simp [hbinding] at hi

theorem get?_create (wanted maxWanted : Nat) (hash : UInt64) (key : Bytes) :
    (create wanted maxWanted).get? hash key = none := by
  refine (wellFormed_create wanted maxWanted).get?_eq_none_iff.2 ?_
  intro index value
  simp [bindingAt?, view, create]

variable {t' : Table}

/-! ### One key changed -/

/-- The table `t'` is well-formed and holds what `t` does, but for one key whose value it is
told. -/
structure Binds (t : Table) (hash : UInt64) (key : Bytes) (value? : Option Bytes) (t' : Table) :
    Prop where
  wellFormed : t'.WellFormed
  maxCapacity : t'.maxCapacity = t.maxCapacity
  get?_eq : ∀ hash' key', t'.get? hash' key' =
    if hash' = hash ∧ key' = key then value? else t.get? hash' key'

/-- No other entry is for the key of this one. -/
theorem Distinct.eq_of_key {bindings : Nat → Option Binding} (h : Distinct bindings) {index : Nat}
    {value : Bytes} (hindex : bindings index = some ⟨hash, key, value⟩) (i : Nat) (b : Binding)
    (hb : bindings i = some b) (hhash : b.hash = hash) (hkey : b.key = key) : i = index :=
  h i index b _ hb hindex hhash hkey

/-- Entries stay distinct when the slot of a key gets another binding for that key. -/
theorem Distinct.update {bindings : Nat → Option Binding} (h : Distinct bindings) {index : Nat}
    (honly : ∀ i b, bindings i = some b → b.hash = hash → b.key = key → i = index)
    {new : Option Binding} (hnew : ∀ b, new = some b → b.hash = hash ∧ b.key = key) :
    Distinct (Function.update bindings index new) := by
  intro i j b c hi hj hhash hkey
  by_cases hii : i = index <;> by_cases hjj : j = index
  · rw [hii, hjj]
  · subst hii
    rw [Function.update_self] at hi
    rw [Function.update_of_ne hjj] at hj
    obtain ⟨rfl, rfl⟩ := hnew b hi
    exact (honly j c hj hhash.symm hkey.symm).symm
  · subst hjj
    rw [Function.update_of_ne hii] at hi
    rw [Function.update_self] at hj
    obtain ⟨rfl, rfl⟩ := hnew c hj
    exact honly i b hi hhash hkey
  · rw [Function.update_of_ne hii] at hi
    rw [Function.update_of_ne hjj] at hj
    exact h i j b c hi hj hhash hkey

/-- A table whose row is no longer stays well-formed while its slots are laid out. -/
theorem WellFormed.of_laid (h : t.WellFormed) (hcapacity : t'.capacity = t.capacity)
    (hmax : t'.maxCapacity = t.maxCapacity) (hslots : t'.slots.size = t.slots.size)
    (hsize : t'.size + t'.freeCount = t'.slots.size) {chain : Nat → List Nat} {free : List Nat}
    (hlaid : t'.Laid none chain free) (hdistinct : Distinct t'.bindingAt?) : t'.WellFormed := by
  refine ⟨?_, ?_, ?_, ?_, hsize, ⟨chain, free, hlaid⟩, hdistinct⟩
  · rw [hcapacity]
    exact h.capacity_eq
  · rw [hmax]
    exact h.maxCapacity_eq
  · rw [hcapacity, hmax]
    exact h.capacity_le
  · rw [hslots, hcapacity]
    exact h.slots_le

/-- **Writing the binding of one key to its slot changes what is looked up for that key alone.** -/
theorem Binds.of_update (h : t.WellFormed) (h' : t'.WellFormed)
    (hmax : t'.maxCapacity = t.maxCapacity) {index : Nat} {value? : Option Bytes}
    (hupdate : t'.bindingAt? =
      Function.update t.bindingAt? index (value?.map fun value => ⟨hash, key, value⟩))
    (honly : ∀ i b, t.bindingAt? i = some b → b.hash = hash → b.key = key → i = index)
    (hold : ∀ b, t.bindingAt? index = some b → b.hash = hash ∧ b.key = key) :
    t.Binds hash key value? t' := by
  refine ⟨h', hmax, ?_⟩
  intro hash' key'
  ext v
  rw [h'.get?_eq_some_iff, hupdate]
  split
  · next hsame =>
    obtain ⟨rfl, rfl⟩ := hsame
    constructor
    · intro hex
      obtain ⟨i, hi⟩ := hex
      by_cases hne : i = index
      · subst hne
        simpa using hi
      · rw [Function.update_of_ne hne] at hi
        exact absurd (honly i _ hi rfl rfl) hne
    · intro hv
      exact ⟨index, by rw [Function.update_self, hv]; rfl⟩
  · next hother =>
    rw [h.get?_eq_some_iff]
    refine exists_congr ?_
    intro i
    by_cases hne : i = index
    · subst hne
      rw [Function.update_self]
      refine iff_of_false ?_ (mt (hold _) hother)
      rw [Option.map_eq_some_iff]
      intro hex
      obtain ⟨w, -, hbinding⟩ := hex
      exact hother ⟨(congrArg Binding.hash hbinding).symm, (congrArg Binding.key hbinding).symm⟩
    · rw [Function.update_of_ne hne]

end Table
end RespStore
