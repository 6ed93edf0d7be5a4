import RespStore.Proofs.Table.Layout

/-!
# RespStore.Proofs.Table.Erasing

Removing from a table. The link before an entry is changed to the one after it, whether that is in
the bucket or in another entry, and the slot is loose then (`Laid.unlink`); it goes to the head of
the free list (`Laid.release`). `erase_cases` says that removing a key takes that key away and no
other, and leaves the table as it is if the key is absent.
-/

namespace RespStore.Table

variable {t t' : Table} {hash : UInt64} {key value : Bytes} {chain : Nat → List Nat}
  {free : List Nat}

/-- Changing the link of an entry changes what the entry links to, and nothing else. -/
theorem modify_next {slots : Array Slot} {index : Nat} {e : Entry}
    (he : slots[index]?.bind Slot.content? = some e) (next : Link) :
    let slots' := slots.modify index (Slot.update fun e => { e with next })
    view Slot.entryLink? slots' = Function.update (view Slot.entryLink? slots) index (some next) ∧
      view Slot.binding? slots' = view Slot.binding? slots ∧
      view Slot.freeLink? slots' = view Slot.freeLink? slots := by
  obtain ⟨slot, hslot, hcontent⟩ := Option.bind_eq_some_iff.1 he
  refine ⟨?_, ?_, ?_⟩
  · rw [view_modify, hslot]
    simp [Slot.entryLink?, hcontent]
  · rw [view_modify, hslot]
    refine Function.update_eq_self_iff.2 ?_
    simp [view, hslot, Slot.binding?, hcontent, Entry.binding]
  · rw [view_modify, hslot]
    refine Function.update_eq_self_iff.2 ?_
    cases slot <;> simp [view, hslot, Slot.freeLink?, Slot.update]

/-- The chains without a slot hold the entries that are in the other slots. -/
theorem Laid.mem_update (h : t.Laid none chain free) {front rest : List Nat} {index own : Nat}
    (hown : own < t.capacity) (hchain : chain own = front ++ index :: rest) {bucket : Nat}
    (hlt : bucket < t.capacity) (i : Nat) :
    i ∈ Function.update chain own (front ++ rest) bucket ↔
      some index ≠ some i ∧ ∃ b, t.bindingAt? i = some b ∧ t.bucketOf b.hash = bucket := by
  have hnodup := (h.chains own hown).nodup
  rw [hchain, List.nodup_middle, List.nodup_cons] at hnodup
  have hindex : index ∈ chain own := by simp [hchain]
  obtain ⟨-, b, hb, hbucket⟩ := (h.mem_chain own hown index).1 hindex
  have hmem := h.mem_chain bucket hlt i
  by_cases hi : i = index
  · subst hi
    by_cases hsame : bucket = own
    · subst hsame
      simpa using hnodup.1
    · rw [Function.update_of_ne hsame, hmem, hb]
      simp [hbucket, Ne.symm hsame]
  · by_cases hsame : bucket = own
    · subst hsame
      simpa [hchain, hi, Ne.symm hi] using hmem
    · simpa [Function.update_of_ne hsame, Ne.symm hi] using hmem

/-- An entry is on no free list, so its slot may be loose. -/
theorem Laid.mem_free_of_entry (h : t.Laid none chain free) {index : Nat} {e : Entry}
    (he : t.entryAt? index = some e) (i : Nat) :
    i ∈ free ↔ some index ≠ some i ∧ (t.freeLink? i).isSome := by
  have hoccupied : t.freeLink? index = none :=
    (isSome_bindingAt?_iff.1 (by simp [bindingAt?_eq_map, he])).2
  by_cases hi : i = index
  · subst hi
    simp [h.mem_free, hoccupied]
  · simpa [Ne.symm hi] using h.mem_free i

/-- Taking the first entry out of its chain changes the bucket. -/
theorem Laid.unlink_first (h : t.Laid none chain free) {rest : List Nat} {index : Nat} {e : Entry}
    (hown : t.bucketOf hash < t.capacity) (hchain : chain (t.bucketOf hash) = index :: rest)
    (he : t.entryAt? index = some e) :
    (t.unlink hash ⟨index, none, e.next⟩).bindingAt? = t.bindingAt? ∧
      (t.unlink hash ⟨index, none, e.next⟩).Laid (some index)
        (Function.update chain (t.bucketOf hash) rest) free := by
  generalize ht' : t.unlink hash ⟨index, none, e.next⟩ = t'
  have hnext : t.entryLink? index = some e.next := by simp [entryLink?_eq_map, he]
  have hcapacity : t'.capacity = t.capacity := by simp [← ht', Table.unlink, capacity]
  have hbucketOf (hash' : UInt64) : t'.bucketOf hash' = t.bucketOf hash' := by
    simp [← ht', Table.unlink, bucketOf]
  have hbinding : t'.bindingAt? = t.bindingAt? := by rw [← ht']; rfl
  have hpath := h.chains _ hown
  rw [hchain] at hpath
  refine ⟨hbinding, ?_, ?_, ?_, ?_, ?_⟩
  · intro bucket hlt
    rw [hcapacity] at hlt
    by_cases hsame : bucket = t.bucketOf hash
    · subst hsame
      have hhead : t'.buckets.getD (t.bucketOf hash) none = e.next := by
        have hown' : t.bucketOf hash < t.buckets.size := hown
        simp [← ht', Table.unlink, hown']
      obtain ⟨-, link, hlink, hrest⟩ := hpath.of_cons
      rw [hnext, Option.some.injEq] at hlink
      rw [hhead, Function.update_self, hlink, ← ht']
      exact hrest
    · have hhead : t'.buckets.getD bucket none = t.buckets.getD bucket none := by
        simp [← ht', Table.unlink, Ne.symm hsame]
      rw [hhead, Function.update_of_ne hsame, ← ht']
      exact h.chains bucket hlt
  · intro bucket hlt i
    rw [hcapacity] at hlt
    simp only [hbucketOf, hbinding]
    exact h.mem_update hown (show chain _ = [] ++ index :: rest from hchain) hlt i
  · rw [← ht']
    exact h.frees
  · rw [← ht']
    exact h.mem_free_of_entry he
  · rw [← ht']
    exact h.freeCount

/-- Taking an entry out from behind another changes the link of that. -/
theorem Laid.unlink_later (h : t.Laid none chain free) {front rest : List Nat}
    {previous index : Nat} {e : Entry} (hown : t.bucketOf hash < t.capacity)
    (hchain : chain (t.bucketOf hash) = front ++ previous :: index :: rest)
    (he : t.entryAt? index = some e) :
    (t.unlink hash ⟨index, some previous, e.next⟩).bindingAt? = t.bindingAt? ∧
      (t.unlink hash ⟨index, some previous, e.next⟩).Laid (some index)
        (Function.update chain (t.bucketOf hash) (front ++ previous :: rest)) free := by
  have hnext : t.entryLink? index = some e.next := by simp [entryLink?_eq_map, he]
  have hpath := h.chains _ hown
  rw [hchain] at hpath
  have hprevious : previous ∈ chain (t.bucketOf hash) := by simp [hchain]
  obtain ⟨-, b, hb, hbucket⟩ := (h.mem_chain _ hown previous).1 hprevious
  obtain ⟨e', he', rfl⟩ := bindingAt?_eq_some_iff.1 hb
  obtain ⟨hentry, hbinding, hfree⟩ := modify_next he' e.next
  unfold Table.unlink
  dsimp only
  generalize t.slots.modify previous (Slot.update fun e' => { e' with next := e.next }) =
    slots at hentry hbinding hfree
  refine ⟨hbinding, ?_, ?_, ?_, ?_, h.freeCount⟩
  · intro bucket hlt
    show Leads (view Slot.entryLink? slots) (t.buckets.getD bucket none) _
    rw [hentry]
    by_cases hsame : bucket = t.bucketOf hash
    · subst hsame
      rw [Function.update_self]
      exact hpath.unlink hnext
    · rw [Function.update_of_ne hsame]
      have hnotMem : previous ∉ chain bucket := by
        rw [h.mem_chain bucket hlt, hb]
        simp [hbucket, Ne.symm hsame]
      exact (h.chains bucket hlt).update_of_notMem hnotMem _
  · intro bucket hlt i
    show _ ↔ _ ∧ ∃ b, view Slot.binding? slots i = some b ∧ t.bucketOf b.hash = bucket
    rw [hbinding, List.append_cons]
    rw [List.append_cons] at hchain
    exact h.mem_update hown hchain hlt i
  · show Leads (view Slot.freeLink? slots) t.freeHead free
    rw [hfree]
    exact h.frees
  · show ∀ i, i ∈ free ↔ some index ≠ some i ∧ (view Slot.freeLink? slots i).isSome
    rw [hfree]
    exact h.mem_free_of_entry he

/-- **Taking an entry out of its chain** leaves its slot loose, and all slots hold what they did. -/
theorem Laid.unlink (h : t.Laid none chain free) {front rest : List Nat} {index : Nat}
    {e : Entry} (hown : t.bucketOf hash < t.capacity)
    (hchain : chain (t.bucketOf hash) = front ++ index :: rest)
    (he : t.entryAt? index = some e) :
    (t.unlink hash ⟨index, front.getLast?, e.next⟩).bindingAt? = t.bindingAt? ∧
      (t.unlink hash ⟨index, front.getLast?, e.next⟩).Laid (some index)
        (Function.update chain (t.bucketOf hash) (front ++ rest)) free := by
  rcases List.eq_nil_or_concat front with rfl | ⟨front, previous, rfl⟩
  · exact h.unlink_first hown hchain he
  · rw [List.concat_eq_append, List.append_assoc, List.singleton_append] at hchain
    rw [List.concat_eq_append, List.append_assoc, List.singleton_append, List.getLast?_concat]
    exact h.unlink_later hown hchain he

@[simp] theorem slots_size_release (t : Table) (index : Nat) :
    (t.release index).slots.size = t.slots.size := Array.size_setIfInBounds

@[simp] theorem capacity_release (t : Table) (index : Nat) :
    (t.release index).capacity = t.capacity := rfl

/-- **Putting a loose slot at the head of the free list** leaves no slot loose. -/
theorem Laid.release {index : Nat} (h : t.Laid (some index) chain free)
    (hindex : index < t.slots.size) :
    (t.release index).bindingAt? = Function.update t.bindingAt? index none ∧
      (t.release index).Laid none chain (index :: free) := by
  have hbinding : (t.release index).bindingAt? = Function.update t.bindingAt? index none := by
    rw [bindingAt?, Table.release, view_setIfInBounds hindex]
    rfl
  have hentry : (t.release index).entryLink? = Function.update t.entryLink? index none := by
    rw [entryLink?, Table.release, view_setIfInBounds hindex]
    rfl
  have hfree : (t.release index).freeLink? =
      Function.update t.freeLink? index (some t.freeHead) := by
    rw [freeLink?, Table.release, view_setIfInBounds hindex]
    rfl
  have hnotFree : index ∉ free := by simp [h.mem_free]
  refine ⟨hbinding, ?_, ?_, ?_, ?_, ?_⟩
  · rw [hentry]
    intro bucket hlt
    have hnotMem : index ∉ chain bucket := by simp [h.mem_chain bucket hlt]
    exact (h.chains bucket hlt).update_of_notMem hnotMem _
  · rw [hbinding]
    intro bucket hlt i
    change i ∈ chain bucket ↔ (none : Option Nat) ≠ some i ∧
      ∃ b, Function.update t.bindingAt? index none i = some b ∧ t.bucketOf b.hash = bucket
    have hmem := h.mem_chain bucket hlt i
    by_cases hi : i = index
    · subst hi
      simpa using hmem
    · simpa [Function.update_of_ne hi, Ne.symm hi] using hmem
  · rw [hfree]
    exact .cons (Function.update_self ..) (h.frees.update_of_notMem hnotFree _)
  · rw [hfree]
    intro i
    by_cases hi : i = index
    · subst hi
      simp
    · simpa [Function.update_of_ne hi, hi, Ne.symm hi] using h.mem_free i
  · simp [Table.release, h.freeCount]

@[simp] theorem slots_size_unlink (t : Table) (hash : UInt64) (p : Place) :
    (t.unlink hash p).slots.size = t.slots.size := by
  unfold Table.unlink
  split <;> simp

@[simp] theorem capacity_unlink (t : Table) (hash : UInt64) (p : Place) :
    (t.unlink hash p).capacity = t.capacity := by
  unfold Table.unlink
  split <;> simp [capacity]

@[simp] theorem maxCapacity_unlink (t : Table) (hash : UInt64) (p : Place) :
    (t.unlink hash p).maxCapacity = t.maxCapacity := by
  unfold Table.unlink
  split <;> rfl

@[simp] theorem size_unlink (t : Table) (hash : UInt64) (p : Place) :
    (t.unlink hash p).size = t.size := by
  unfold Table.unlink
  split <;> rfl

@[simp] theorem freeCount_unlink (t : Table) (hash : UInt64) (p : Place) :
    (t.unlink hash p).freeCount = t.freeCount := by
  unfold Table.unlink
  split <;> rfl

/-- A key that is present is absent once its slot is free. -/
theorem WellFormed.unlink_release (h : t.WellFormed) (hlaid : t.Laid none chain free)
    {front rest : List Nat} {index : Nat} {e : Entry}
    (hchain : chain (t.bucketOf hash) = front ++ index :: rest)
    (he : t.entryAt? index = some e) (hfor : e.isFor hash key = true)
    (ht' : (t.unlink hash ⟨index, front.getLast?, e.next⟩).release index = t') :
    t.Binds hash key none t' ∧ t'.size + 1 = t.size := by
  have hold : t.bindingAt? index = some ⟨hash, key, e.value.bytes⟩ :=
    bindingAt?_eq_some_iff.2 ⟨e, he, Entry.binding_eq_iff.2 ⟨hfor, rfl⟩⟩
  have hindex : index < t.slots.size := (isSome_bindingAt?_iff.1 (by simp [hold])).1
  obtain ⟨hbinding, hloose⟩ := hlaid.unlink (h.bucketOf_lt hash) hchain he
  obtain ⟨hbinding', hlaid'⟩ := hloose.release (by simpa using hindex)
  rw [hbinding] at hbinding'
  have hcapacity : t'.capacity = t.capacity := ht' ▸ capacity_unlink ..
  have hmax : t'.maxCapacity = t.maxCapacity := ht' ▸ maxCapacity_unlink ..
  have hslots : t'.slots.size = t.slots.size := by simp [← ht']
  have hfreeCount : t'.freeCount = t.freeCount + 1 := by simp [← ht', Table.release]
  rw [ht'] at hbinding' hlaid'
  -- the slot was on no free list, so there was an entry to count
  have hcount : free.length + 1 ≤ t.slots.size := by
    refine length_le_of_leads hlaid'.frees ?_
    intro i hi
    rw [← hslots]
    exact lt_of_view ((hlaid'.mem_free i).1 hi).2
  have hsize : t'.size + 1 = t.size := by
    have := h.size_add
    have := hlaid.freeCount
    have hminus : t'.size = t.size - 1 := by simp [← ht', Table.release]
    omega
  have hadd : t'.size + t'.freeCount = t'.slots.size := by
    have := h.size_add
    omega
  have honly := h.distinct.eq_of_key hold
  have hdistinct : Distinct t'.bindingAt? := by
    rw [hbinding']
    exact h.distinct.update honly (by simp)
  have hwf := h.of_laid hcapacity hmax hslots hadd hlaid' hdistinct
  exact ⟨Binds.of_update h hwf hmax hbinding' honly (by simp [hold]), hsize⟩

/-- **Removing a key takes away that key alone**, and nothing if the key is absent. -/
theorem WellFormed.erase_cases (h : t.WellFormed) (hash : UInt64) (key : Bytes) :
    (∃ old t', t.get? hash key = some old ∧ t.erase hash key = (true, t') ∧
        t.Binds hash key none t' ∧ t'.size + 1 = t.size) ∨
      t.get? hash key = none ∧ t.erase hash key = (false, t) := by
  obtain ⟨chain, free, hlaid⟩ := h.laid
  rcases h.locate_cases hlaid hash key with
    ⟨front, index, rest, e, hchain, he, hfor, hlocate⟩ | ⟨hnone, hlocate⟩
  · left
    have hold : t.bindingAt? index = some ⟨hash, key, e.value.bytes⟩ :=
      bindingAt?_eq_some_iff.2 ⟨e, he, Entry.binding_eq_iff.2 ⟨hfor, rfl⟩⟩
    obtain ⟨hbinds, hsize⟩ := h.unlink_release hlaid hchain he hfor rfl
    refine ⟨e.value.bytes, _, h.get?_eq_some_iff.2 ⟨index, hold⟩, ?_, hbinds, hsize⟩
    rw [erase, hlocate]
  · right
    exact ⟨h.get?_eq_none_iff.2 hnone, by rw [erase, hlocate]⟩

end RespStore.Table
