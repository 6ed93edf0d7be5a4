import RespStore.Proofs.Table.Relinking

/-!
# RespStore.Proofs.Table.Storing

Storing in a table. A slot is taken from the free list or from the end of the row, after growing the
table if it has to (`takeSlot_cases`), and is loose then. An entry is put there at the head of its
chain (`Laid.place`), and a key that is present gets its value in the slot it has (`update_value`).

`set_cases` says that a write is always one of three: an update of a key that is present, an
insertion, or a refusal that leaves the table as it is because it is full.
-/

namespace RespStore.Table

variable {t t' : Table} {hash : UInt64} {key value : Bytes} {chain : Nat → List Nat}

/-! ### Taking a slot -/

/-- The table `t'` holds what `t` does, and has the slot `index` ready for an entry. -/
structure Reserved (t : Table) (index : Nat) (t' : Table) : Prop where
  binding : t'.bindingAt? = t.bindingAt?
  unbound : t.bindingAt? index = none
  index_lt : index < t'.slots.size
  laid : ∃ chain free, t'.Laid (some index) chain free
  size : t'.size = t.size
  size_add : t'.size + t'.freeCount + 1 = t'.slots.size
  slots_le : t'.slots.size ≤ t'.capacity
  capacity_le : t'.capacity ≤ t'.maxCapacity
  capacity_eq : ∃ k, t'.capacity = 2 ^ k
  maxCapacity : t'.maxCapacity = t.maxCapacity

/-- A slot without an entry is on no chain, so it may be loose. -/
theorem Laid.mem_chain_of_unbound {free : List Nat} (h : t.Laid none chain free) {index : Nat}
    (hunbound : t.bindingAt? index = none) {bucket : Nat} (hbucket : bucket < t.capacity)
    (i : Nat) :
    i ∈ chain bucket ↔
      some index ≠ some i ∧ ∃ b, t.bindingAt? i = some b ∧ t.bucketOf b.hash = bucket := by
  rw [h.mem_chain bucket hbucket i]
  refine and_congr_left ?_
  intro hbound
  obtain ⟨b, hb, -⟩ := hbound
  have hne : index ≠ i := by
    intro heq
    subst heq
    exact absurd (hunbound.symm.trans hb) (by simp)
  simp [hne]

/-- A slot that was never used is ready. -/
theorem WellFormed.extend_reserved (h : t.WellFormed) (hlt : t.slots.size < t.capacity) :
    t.Reserved t.slots.size t.extend.2 := by
  obtain ⟨chain, free, hlaid⟩ := h.laid
  have hbinding_none : t.bindingAt? t.slots.size = none := by simp [bindingAt?, view]
  have hentry_none : t.entryLink? t.slots.size = none := by simp [entryLink?, view]
  have hfree_none : t.freeLink? t.slots.size = none := by simp [freeLink?, view]
  have hbinding : t.extend.2.bindingAt? = t.bindingAt? := by
    rw [bindingAt?, extend, view_push]
    exact Function.update_eq_self_iff.2 hbinding_none.symm
  have hentry : t.extend.2.entryLink? = t.entryLink? := by
    rw [entryLink?, extend, view_push]
    exact Function.update_eq_self_iff.2 hentry_none.symm
  have hfree : t.extend.2.freeLink? = Function.update t.freeLink? t.slots.size (some none) := by
    rw [freeLink?, extend, view_push]
    rfl
  have hnotMem : t.slots.size ∉ free := by
    rw [hlaid.mem_free, hfree_none]
    simp
  refine ⟨hbinding, hbinding_none, by simp [extend], ⟨chain, free, ?_, ?_, ?_, ?_, ?_⟩, rfl, ?_, ?_,
    h.capacity_le, h.capacity_eq, rfl⟩
  · rw [hentry]
    exact hlaid.chains
  · intro bucket hbucket i
    rw [hlaid.mem_chain_of_unbound hbinding_none hbucket i, hbinding]
    rfl
  · rw [hfree]
    exact hlaid.frees.update_of_notMem hnotMem _
  · intro i
    rw [hfree]
    by_cases hi : i = t.slots.size
    · subst hi
      simp [hnotMem]
    · rw [hlaid.mem_free i, Function.update_of_ne hi]
      simp [Ne.symm hi]
  · exact hlaid.freeCount
  · have := h.size_add
    simp only [extend, Array.size_push]
    omega
  · simp only [extend, Array.size_push]
    exact hlt

/-- The first slot of the free list is ready when the list goes on without it. -/
theorem WellFormed.unfree_reserved (h : t.WellFormed) {index : Nat} {link : Link}
    (hhead : t.freeHead = some index) (hslot : t.slots[index]? = some (.vacant link)) :
    t.Reserved index { t with freeHead := link, freeCount := t.freeCount - 1 } := by
  obtain ⟨chain, free, hlaid⟩ := h.laid
  obtain ⟨link', rest, rfl, hslot', hrest, hcount⟩ := hlaid.of_freeHead hhead
  rw [hslot] at hslot'
  cases hslot'
  have hnodup := List.nodup_cons.1 hlaid.frees.nodup
  have hfree : t.freeLink? index = some link := freeLink?_eq_some_iff.2 hslot
  have hunbound : t.bindingAt? index = none := by
    rw [← Option.not_isSome_iff_eq_none, isSome_bindingAt?_iff, hfree]
    simp
  refine ⟨rfl, hunbound, ?_, ⟨chain, rest, hlaid.chains, ?_, hrest, ?_, ?_⟩, rfl, ?_, h.slots_le,
    h.capacity_le, h.capacity_eq, rfl⟩
  · exact (Array.getElem?_eq_some_iff.1 hslot).1
  · intro bucket hbucket i
    exact hlaid.mem_chain_of_unbound hunbound hbucket i
  · intro i
    change i ∈ rest ↔ some index ≠ some i ∧ (t.freeLink? i).isSome
    have hmem := hlaid.mem_free i
    rw [List.mem_cons] at hmem
    by_cases hi : i = index
    · subst hi
      simp [hnodup.1]
    · simpa [hi, Ne.symm hi] using hmem
  · simp [hcount]
  · have := h.size_add
    dsimp only
    omega

/-- Where the free list is empty a slot is found unless the table is full and may not grow. -/
theorem WellFormed.freshSlot_cases (h : t.WellFormed) (hfree : t.freeCount = 0) :
    (t.size < t.maxCapacity ∧ ∃ index t', t.freshSlot = (.ok index, t') ∧ t.Reserved index t') ∨
      (t.size = t.maxCapacity ∧
        t.freshSlot = (.error (.capacityExceeded t.maxCapacity), t)) := by
  have hsize := h.size_add
  have hslots := h.slots_le
  have hmax := h.capacity_le
  simp only [freshSlot]
  by_cases hfull : t.slots.size = t.capacity
  · rw [if_pos hfull]
    rcases h.grow_cases with
      ⟨hlt, t', hgrow, ht', hcapacity, hbinding, hsize', hslots', hmax'⟩ | ⟨hsame, hgrow⟩
    · left
      have hpos := h.capacity_pos
      have hreserved := ht'.extend_reserved (by omega)
      rw [hgrow]
      refine ⟨by omega, t'.slots.size, _, rfl, ?_⟩
      exact { hreserved with
        binding := hreserved.binding.trans hbinding
        unbound := hbinding ▸ hreserved.unbound
        size := hreserved.size.trans hsize'
        maxCapacity := hreserved.maxCapacity.trans hmax' }
    · right
      rw [hgrow]
      exact ⟨by omega, rfl⟩
  · left
    rw [if_neg hfull]
    exact ⟨by omega, t.slots.size, _, rfl, h.extend_reserved (by omega)⟩

/-- **A slot is found unless all the slots there may be are occupied.** -/
theorem WellFormed.takeSlot_cases (h : t.WellFormed) :
    (t.size < t.maxCapacity ∧ ∃ index t', t.takeSlot = (.ok index, t') ∧ t.Reserved index t') ∨
      (t.size = t.maxCapacity ∧
        t.takeSlot = (.error (.capacityExceeded t.maxCapacity), t)) := by
  obtain ⟨chain, free, hlaid⟩ := h.laid
  cases hhead : t.freeHead with
  | some index =>
    left
    have hsize := h.size_add
    have hslots := h.slots_le
    have hmax := h.capacity_le
    obtain ⟨link, rest, -, hslot, -, hcount⟩ := hlaid.of_freeHead hhead
    exact ⟨by omega, index, _, by simp only [takeSlot, hhead, hslot],
      h.unfree_reserved hhead hslot⟩
  | none =>
    have htake : t.takeSlot = t.freshSlot := by simp only [takeSlot, hhead]
    rw [htake]
    exact h.freshSlot_cases (hlaid.freeCount_of_none hhead)

/-! ### Filling a slot -/

@[simp] theorem slots_size_place (t : Table) (index : Nat) (hash : UInt64) (key value : Bytes) :
    (t.place index hash key value).slots.size = t.slots.size := Array.size_setIfInBounds

@[simp] theorem capacity_place (t : Table) (index : Nat) (hash : UInt64) (key value : Bytes) :
    (t.place index hash key value).capacity = t.capacity := Array.size_setIfInBounds

/-- **An entry in a loose slot at the head of its chain** leaves no slot loose. -/
theorem Laid.place {index : Nat} {free : List Nat} (h : t.Laid (some index) chain free)
    (hindex : index < t.slots.size) (hpos : 0 < t.capacity) (hash : UInt64) (key value : Bytes) :
    (t.place index hash key value).bindingAt? =
        Function.update t.bindingAt? index (some ⟨hash, key, value⟩) ∧
      (t.place index hash key value).Laid none
        (Function.update chain (t.bucketOf hash) (index :: chain (t.bucketOf hash))) free := by
  have hown : t.bucketOf hash < t.capacity := bucketAmong_lt hpos hash
  have hbinding : (t.place index hash key value).bindingAt? =
      Function.update t.bindingAt? index (some ⟨hash, key, value⟩) := by
    rw [bindingAt?, Table.place, view_setIfInBounds hindex]
    rfl
  have hentry : (t.place index hash key value).entryLink? =
      Function.update t.entryLink? index (some (t.head hash)) := by
    rw [entryLink?, Table.place, view_setIfInBounds hindex]
    rfl
  have hfree : (t.place index hash key value).freeLink? =
      Function.update t.freeLink? index none := by
    rw [freeLink?, Table.place, view_setIfInBounds hindex]
    rfl
  have hcapacity := capacity_place t index hash key value
  have hbucketOf (hash' : UInt64) :
      (t.place index hash key value).bucketOf hash' = t.bucketOf hash' := by
    simp [Table.place, bucketOf]
  have hnotMem {bucket : Nat} (hlt : bucket < t.capacity) : index ∉ chain bucket := by
    simp [h.mem_chain bucket hlt]
  have hnotFree : index ∉ free := by simp [h.mem_free]
  refine ⟨hbinding, ?_, ?_, ?_, ?_, h.freeCount⟩
  · rw [hcapacity, hentry]
    intro bucket hlt
    have hpath := (h.chains bucket hlt).update_of_notMem (hnotMem hlt) (some (t.head hash))
    by_cases hsame : bucket = t.bucketOf hash
    · subst hsame
      have hhead : (t.place index hash key value).buckets.getD (t.bucketOf hash) none =
          some index := by
        have hlt' : t.bucketOf hash < t.buckets.size := hlt
        simp [Table.place, hlt']
      rw [hhead, Function.update_self]
      exact .cons (Function.update_self ..) hpath
    · have hhead : (t.place index hash key value).buckets.getD bucket none =
          t.buckets.getD bucket none := by simp [Table.place, Ne.symm hsame]
      rw [hhead, Function.update_of_ne hsame]
      exact hpath
  · rw [hcapacity, hbinding]
    intro bucket hlt i
    simp only [hbucketOf]
    by_cases hi : i = index
    · subst hi
      by_cases hsame : bucket = t.bucketOf hash
      · subst hsame
        simp
      · simp [Function.update_of_ne hsame, hnotMem hlt, Ne.symm hsame]
    · have hmem := h.mem_chain bucket hlt i
      by_cases hsame : bucket = t.bucketOf hash
      · subst hsame
        simpa [Function.update_of_ne hi, hi, Ne.symm hi] using hmem
      · simpa [Function.update_of_ne hi, Function.update_of_ne hsame, Ne.symm hi] using hmem
  · rw [hfree]
    exact h.frees.update_of_notMem hnotFree _
  · rw [hfree]
    intro i
    by_cases hi : i = index
    · subst hi
      simp [hnotFree]
    · simpa [Function.update_of_ne hi, Ne.symm hi] using h.mem_free i

/-- A key that is absent is present once it has its place. -/
theorem Reserved.place {index : Nat} (hreserved : t.Reserved index t') (h : t.WellFormed)
    (habsent : t.get? hash key = none) (value : Bytes) :
    t.Binds hash key (some value) (t'.place index hash key value) ∧
      (t'.place index hash key value).size = t.size + 1 := by
  obtain ⟨chain, free, hlaid⟩ := hreserved.laid
  have hpos : 0 < t'.capacity := Nat.lt_of_lt_of_le (Nat.zero_lt_of_lt hreserved.index_lt)
    hreserved.slots_le
  obtain ⟨hbinding, hlaid'⟩ := hlaid.place hreserved.index_lt hpos hash key value
  rw [hreserved.binding] at hbinding
  have hnone := h.get?_eq_none_iff.1 habsent
  have honly : ∀ i b, t.bindingAt? i = some b → b.hash = hash → b.key = key → i = index := by
    rintro i ⟨hash', key', value'⟩ hb rfl rfl
    exact absurd hb (hnone i value')
  have hsize : (t'.place index hash key value).size = t.size + 1 := by
    rw [← hreserved.size]
    rfl
  have hcapacity := capacity_place t' index hash key value
  have hslots := slots_size_place t' index hash key value
  refine ⟨Binds.of_update h ⟨?_, ?_, ?_, ?_, ?_, ⟨_, free, hlaid'⟩, ?_⟩
    hreserved.maxCapacity hbinding honly ?_, hsize⟩
  · exact hcapacity ▸ hreserved.capacity_eq
  · obtain ⟨k, hk⟩ := h.maxCapacity_eq
    exact ⟨k, hreserved.maxCapacity.trans hk⟩
  · rw [hcapacity]
    exact hreserved.capacity_le
  · rw [hslots, hcapacity]
    exact hreserved.slots_le
  · have := hreserved.size_add
    rw [hslots, ← this]
    simp only [Table.place]
    omega
  · rw [hbinding]
    exact h.distinct.update honly (by simp)
  · simp [hreserved.unbound]

/-- Another value for a key that is present, in the same slot. -/
theorem WellFormed.update_value (h : t.WellFormed) {index : Nat} {old : Bytes}
    (hold : t.bindingAt? index = some ⟨hash, key, old⟩) {f : Entry → Entry}
    (hbinding : ∀ e, (f e).binding = ⟨e.hash, e.key.bytes, value⟩)
    (hnext : ∀ e, (f e).next = e.next) :
    t.Binds hash key (some value)
      { t with slots := t.slots.modify index (Slot.update f) } := by
  generalize ht' : { t with slots := t.slots.modify index (Slot.update f) } = t'
  obtain ⟨chain, free, hlaid⟩ := h.laid
  obtain ⟨e, he, hbe⟩ := bindingAt?_eq_some_iff.1 hold
  obtain ⟨slot, hslot, hcontent⟩ := Option.bind_eq_some_iff.1 he
  have hbinding' : t'.bindingAt? =
      Function.update t.bindingAt? index (some ⟨hash, key, value⟩) := by
    rw [← ht', bindingAt?, view_modify, hslot]
    have hnew : (slot.update f).binding? = some ⟨hash, key, value⟩ := by
      obtain ⟨hhash, hkey, -⟩ : e.hash = hash ∧ e.key.bytes = key ∧ e.value.bytes = old := by
        simpa [Entry.binding] using hbe
      simp [Slot.binding?, hcontent, hbinding, hhash, hkey]
    rw [Option.bind_some, hnew]
    rfl
  have hentry : t'.entryLink? = t.entryLink? := by
    rw [← ht', entryLink?, view_modify, hslot]
    refine Function.update_eq_self_iff.2 ?_
    simp [view, hslot, Slot.entryLink?, hcontent, hnext]
  have hfree : t'.freeLink? = t.freeLink? := by
    rw [← ht', freeLink?, view_modify, hslot]
    refine Function.update_eq_self_iff.2 ?_
    cases slot <;> simp [view, hslot, Slot.freeLink?, Slot.update]
  have hslots : t'.slots.size = t.slots.size := by simp [← ht']
  have honly : ∀ i b, t.bindingAt? i = some b → b.hash = hash → b.key = key → i = index :=
    h.distinct.eq_of_key hold
  have hlaid' : t'.Laid none chain free := by
    have hchain : ∀ bucket < t.capacity, ∀ i, i ∈ chain bucket ↔
        (none : Option Nat) ≠ some i ∧
          ∃ b, t'.bindingAt? i = some b ∧ t.bucketOf b.hash = bucket := by
      intro bucket hlt i
      rw [hlaid.mem_chain bucket hlt i, hbinding']
      by_cases hi : i = index
      · subst hi
        simp [hold]
      · rw [Function.update_of_ne hi]
    rw [← ht'] at hentry hfree hchain ⊢
    exact ⟨hentry.symm ▸ hlaid.chains, hchain, hfree.symm ▸ hlaid.frees,
      hfree.symm ▸ hlaid.mem_free, hlaid.freeCount⟩
  have hmax : t'.maxCapacity = t.maxCapacity := by rw [← ht']
  have hsize : t'.size + t'.freeCount = t'.slots.size := by
    rw [hslots, ← h.size_add, ← ht']
  have hdistinct : Distinct t'.bindingAt? := by
    rw [hbinding']
    exact h.distinct.update honly (by simp)
  have hwf : t'.WellFormed := h.of_laid (by rw [← ht']; rfl) hmax hslots hsize hlaid' hdistinct
  exact Binds.of_update h hwf hmax hbinding' honly (by simp [hold])

/-- **A write is one of three.** The key is present and gets another value; or it is absent and
there is a slot for it; or it is absent, all the slots there may be are occupied, and nothing
changes. -/
theorem WellFormed.set_cases (h : t.WellFormed) (hash : UInt64) (key value : Bytes) :
    (∃ old t', t.get? hash key = some old ∧ t.set hash key value = (.ok .updated, t') ∧
        t.Binds hash key (some value) t' ∧ t'.size = t.size) ∨
      (∃ t', t.get? hash key = none ∧ t.size < t.maxCapacity ∧
        t.set hash key value = (.ok .inserted, t') ∧
        t.Binds hash key (some value) t' ∧ t'.size = t.size + 1) ∨
      t.get? hash key = none ∧ t.size = t.maxCapacity ∧
        t.set hash key value = (.error (.capacityExceeded t.maxCapacity), t) := by
  cases hfind : t.find? hash key with
  | some index =>
    obtain ⟨old, hold⟩ := h.find?_eq_some_iff.1 hfind
    have hset : t.set hash key value = (.ok .updated, { t with
        slots := t.slots.modify index (Slot.update fun e =>
          { e with value := e.value.replace value }) }) := by
      rw [set, hfind]
    left
    refine ⟨old, _, h.get?_eq_some_iff.2 ⟨index, hold⟩, hset, ?_, rfl⟩
    exact h.update_value hold (by simp [Entry.binding]) (by simp)
  | none =>
    right
    have habsent : t.get? hash key = none := by simp [get?, hfind]
    rcases h.takeSlot_cases with ⟨hlt, index, t', htake, hreserved⟩ | ⟨hfull, htake⟩
    · left
      obtain ⟨hbinds, hsize⟩ := hreserved.place h habsent value
      exact ⟨_, habsent, hlt, by rw [set, hfind]; simp only [htake], hbinds, hsize⟩
    · right
      exact ⟨habsent, hfull, by rw [set, hfind]; simp only [htake]⟩

end RespStore.Table
