import RespStore.Proofs.Table.Consistency

/-!
# RespStore.Proofs.Table.Checked

No operation of a table goes wrong, in any state that calls can bring it to. `Checked.perform` makes
a call as `Table.perform` does, but it checks every step that could go wrong there. An index has to
lie in its row, a slot on a chain has to be occupied and one on the free list vacant, a count may
not go below zero, the number of a slot has to fit into a link, and a walk along a chain may take no
more steps than there are entries. A check that fails gives `none`.

No check fails (`perform_eq`). A walk passes a beginning of the chain it is on (`follow_eq`), and a
chain is no longer than there are entries; the other checks follow from where the slots are that an
operation writes to, which is what `Laid` and `Reserved` say.
-/

namespace RespStore.Table

namespace Checked

/-! ### Steps -/

/-- The link to a slot, if its number has 32 bits. Slots are numbered from one. -/
def link (index : Nat) : Option Link := if index + 1 < 2 ^ 32 then some (some index) else none

/-- A count without some of what was counted, if there are so many. -/
def sub (m n : Nat) : Option Nat := if n ≤ m then some (m - n) else none

/-- Writes to a row, at an index that has to lie in it. -/
def write {α : Type} (row : Array α) (index : Nat) (a : α) : Option (Array α) :=
  if index < row.size then some (row.setIfInBounds index a) else none

/-- The bucket of a hash, with the first entry of its chain. -/
def bucket (buckets : Array Link) (hash : UInt64) : Option (Nat × Link) := do
  let mask ← sub buckets.size 1
  let index := hash.toNat &&& mask
  let first ← buckets[index]?
  some (index, first)

/-- Changes the entry in a slot, where there has to be one. -/
def update (t : Table) (index : Nat) (f : Entry → Entry) : Option Table := do
  let _ ← t.entryAt? index
  some { t with slots := t.slots.modify index (Slot.update f) }

/-! ### Looking up -/

/-- Follows a chain from `link` to the entry for a key, and tells which slots it has passed. The
chain has to come to an end within `steps` entries. -/
def follow (t : Table) (hash : UInt64) (key : Bytes) :
    (steps : Nat) → (previous link : Link) → Option (List Nat × Option Place)
  | _, _, none => some ([], none)
  | 0, _, some _ => none
  | steps + 1, previous, some index => do
    let e ← t.entryAt? index
    if e.isFor hash key then some ([index], some ⟨index, previous, e.next⟩)
    else
      let (passed, place) ← follow t hash key steps (some index) e.next
      some (index :: passed, place)

/-- The place of the entry for a key, and the slots that were passed on the way. -/
def locate (t : Table) (hash : UInt64) (key : Bytes) : Option (List Nat × Option Place) := do
  let (_, first) ← bucket t.buckets hash
  follow t hash key t.size none first

/-- The slot of a key. -/
def find (t : Table) (hash : UInt64) (key : Bytes) : Option (Option Nat) := do
  let (_, place) ← locate t hash key
  some (place.map Place.index)

/-- The value of a key. -/
def get (t : Table) (hash : UInt64) (key : Bytes) : Option (Option Bytes) := do
  match ← find t hash key with
  | some index =>
    let e ← t.entryAt? index
    some (some e.value.bytes)
  | none => some none

/-! ### Storing -/

/-- Links the entry in a slot at the head of its chain, after the slots in `done`. -/
def relinkSlot (state : Array Slot × Array Link) (slot : Slot) :
    Option (Array Slot × Array Link) := do
  let (done, buckets) := state
  match slot with
  | .occupied e =>
    let (own, next) ← bucket buckets e.hash
    let first ← link done.size
    let buckets ← write buckets own first
    some (done.push (.occupied { e with next }), buckets)
  | .vacant nextFree => some (done.push (.vacant nextFree), buckets)

/-- Links every entry anew among `count` buckets. There have to be as many as there are slots. -/
def relink (t : Table) (count : Nat) : Option Table := do
  let (slots, buckets) ← t.slots.foldlM relinkSlot (#[], Array.replicate count none)
  let _room ← sub count slots.size
  some { t with slots, buckets }

/-- Makes room for twice as many slots, if there may be as many. -/
def grow (t : Table) : Option (Except StoreError Unit × Table) :=
  if t.maxCapacity ≤ t.capacity then some (.error (.capacityExceeded t.capacity), t)
  else do
    let t ← relink t (2 * t.capacity)
    some (.ok (), t)

/-- Begins to use one slot more, which is then the last one. -/
def extend (t : Table) : Option (Nat × Table) := do
  let slots := t.slots.push (.vacant none)
  let index ← sub slots.size 1
  some (index, { t with slots })

/-- Grows a table if it has no slot left that was never used. -/
def makeRoom (t : Table) : Option (Except StoreError Unit × Table) :=
  if t.slots.size = t.capacity then grow t else some (.ok (), t)

/-- A slot that was never used before, growing the table if it has none. -/
def freshSlot (t : Table) : Option (Except StoreError Nat × Table) := do
  match ← makeRoom t with
  | (.ok (), t) =>
    let (index, t) ← extend t
    some (.ok index, t)
  | (.error error, t) => some (.error error, t)

/-- A slot for a new entry: the first on the free list, which has to be vacant, or a fresh one. -/
def takeSlot (t : Table) : Option (Except StoreError Nat × Table) :=
  match t.freeHead with
  | some index => do
    let nextFree ← t.freeLink? index
    let freeCount ← sub t.freeCount 1
    some (.ok index, { t with freeHead := nextFree, freeCount })
  | none => freshSlot t

/-- Puts a new entry into a slot, at the head of its chain. -/
def place (t : Table) (index : Nat) (hash : UInt64) (key value : Bytes) : Option Table := do
  let (own, next) ← bucket t.buckets hash
  let slots ← write t.slots index (.occupied ⟨hash, next, Blob.copyOf key, Blob.copyOf value⟩)
  let first ← link index
  let buckets ← write t.buckets own first
  some { t with slots, buckets, size := t.size + 1 }

/-- Stores a value. -/
def set (t : Table) (hash : UInt64) (key value : Bytes) :
    Option (Except StoreError Stored × Table) := do
  match ← find t hash key with
  | some index =>
    let t ← update t index fun e => { e with value := e.value.replace value }
    some (.ok .updated, t)
  | none =>
    match ← takeSlot t with
    | (.ok index, t) =>
      let t ← place t index hash key value
      some (.ok .inserted, t)
    | (.error error, t) => some (.error error, t)

/-! ### Removing -/

/-- Takes an entry out of its chain. -/
def unlink (t : Table) (hash : UInt64) (p : Place) : Option Table :=
  match p.previous with
  | none => do
    let (own, _) ← bucket t.buckets hash
    let buckets ← write t.buckets own p.next
    some { t with buckets }
  | some previous => update t previous fun e => { e with next := p.next }

/-- Puts a slot at the head of the free list. -/
def release (t : Table) (index : Nat) : Option Table := do
  let slots ← write t.slots index (.vacant t.freeHead)
  let freeHead ← link index
  let size ← sub t.size 1
  some { t with slots, freeHead, freeCount := t.freeCount + 1, size }

/-- Removes a key, and tells whether it was present. -/
def erase (t : Table) (hash : UInt64) (key : Bytes) : Option (Bool × Table) := do
  match ← locate t hash key with
  | (_, some p) =>
    let t ← unlink t hash p
    let t ← release t p.index
    some (true, t)
  | (_, none) => some (false, t)

/-- Makes a call. -/
def perform (t : Table) : Call → Option (Answer × Table)
  | .set hash key value => do
    let (result, t) ← set t hash key value
    some (.stored result, t)
  | .get hash key => do
    let value? ← get t hash key
    some (.value value?, t)
  | .erase hash key => do
    let (present, t) ← erase t hash key
    some (.erased present, t)

/-! ### No check fails -/

variable {t t' : Table} {hash : UInt64} {key : Bytes} {index : Nat}

theorem link_of_lt (h : index + 1 < 2 ^ 32) : link index = some (some index) := if_pos h

theorem sub_of_le {m n : Nat} (h : n ≤ m) : sub m n = some (m - n) := if_pos h

theorem write_of_lt {α : Type} {row : Array α} (h : index < row.size) (a : α) :
    write row index a = some (row.setIfInBounds index a) := if_pos h

theorem update_of_entry {e : Entry} (he : t.entryAt? index = some e) (f : Entry → Entry) :
    update t index f = some { t with slots := t.slots.modify index (Slot.update f) } := by
  rw [update, he]
  rfl

/-- A mask of low bits chooses one of the buckets. -/
theorem bucket_eq {buckets : Array Link} (hpos : 0 < buckets.size) (hash : UInt64) :
    bucket buckets hash =
      some (bucketAmong buckets.size hash,
        buckets.getD (bucketAmong buckets.size hash) none) := by
  have hlt := bucketAmong_lt hpos hash
  have hfirst : buckets[bucketAmong buckets.size hash]? =
      some (buckets.getD (bucketAmong buckets.size hash) none) := by
    simp [hlt]
  rw [bucket, sub_of_le hpos]
  show (buckets[bucketAmong buckets.size hash]? >>= fun first => some (_, first)) = _
  rw [hfirst]
  rfl

/-- **A walk along a chain** passes a beginning of it, slot by slot, and finds what there is to
find. -/
theorem follow_eq {link : Link} {path : List Nat} (h : Leads t.entryLink? link path)
    (hash : UInt64) (key : Bytes) {steps steps' : Nat} (hsteps : path.length ≤ steps)
    (hsteps' : path.length ≤ steps') (previous : Link) :
    ∃ passed, passed <+: path ∧ follow t hash key steps previous link =
      some (passed, t.follow hash key steps' previous link) := by
  induction h generalizing steps steps' previous with
  | nil =>
    refine ⟨[], List.nil_prefix, ?_⟩
    cases steps <;> cases steps' <;> rfl
  | @cons index link path hnext _ ih =>
    obtain ⟨e, he, rfl⟩ : ∃ e, t.entryAt? index = some e ∧ e.next = link := by
      rwa [entryLink?_eq_map, Option.map_eq_some_iff] at hnext
    cases steps with
    | zero => simp at hsteps
    | succ steps =>
      cases steps' with
      | zero => simp at hsteps'
      | succ steps' =>
        simp only [follow, Table.follow, he, Option.bind_eq_bind, Option.bind_some]
        by_cases hfor : e.isFor hash key = true
        · exact ⟨[index], by simp, by simp [hfor]⟩
        · obtain ⟨passed, hpassed, hfollow⟩ :=
            ih (by simpa using hsteps) (by simpa using hsteps') (some index)
          refine ⟨index :: passed, by simpa using hpassed, ?_⟩
          simp [hfor, hfollow]

/-- **A walk ends.** The slots that it passes are all different, each of them is occupied, and there
are no more of them than entries. -/
theorem locate_eq (h : t.WellFormed) (hash : UInt64) (key : Bytes) :
    ∃ passed, locate t hash key = some (passed, t.locate? hash key) ∧ passed.Nodup ∧
      passed.length ≤ t.size ∧ ∀ index ∈ passed, ∃ e, t.slots[index]? = some (.occupied e) := by
  obtain ⟨chain, free, hlaid⟩ := h.laid
  have hchain := hlaid.isChain (h.bucketOf_lt hash)
  have hlength : (chain (t.bucketOf hash)).length ≤ t.size :=
    h.consistent.size_eq ▸ hchain.length_le
  obtain ⟨passed, hpassed, hfollow⟩ :=
    follow_eq hchain.leads hash key hlength (hlength.trans h.size_le_slots) none
  refine ⟨passed, ?_, hpassed.sublist.nodup hchain.nodup, hpassed.length_le.trans hlength, ?_⟩
  · rw [locate, bucket_eq h.capacity_pos]
    exact hfollow
  · intro index hindex
    obtain ⟨e, he, -⟩ := hchain.entries index (hpassed.subset hindex)
    exact ⟨e, he⟩

theorem find_eq (h : t.WellFormed) (hash : UInt64) (key : Bytes) :
    find t hash key = some (t.find? hash key) := by
  obtain ⟨passed, hlocate, -⟩ := locate_eq h hash key
  rw [find, hlocate]
  rfl

/-- What is found is an entry. -/
theorem entry_of_find (h : t.WellFormed) (hfind : t.find? hash key = some index) :
    ∃ e, t.entryAt? index = some e := by
  obtain ⟨value, hvalue⟩ := h.find?_eq_some_iff.1 hfind
  obtain ⟨e, he, -⟩ := bindingAt?_eq_some_iff.1 hvalue
  exact ⟨e, he⟩

theorem get_eq (h : t.WellFormed) (hash : UInt64) (key : Bytes) :
    get t hash key = some (t.get? hash key) := by
  rw [get, find_eq h, get?]
  cases hfind : t.find? hash key with
  | none => rfl
  | some index =>
    obtain ⟨e, he⟩ := entry_of_find h hfind
    simp [he]

theorem relinkSlot_eq {state : Array Slot × Array Link} (hpos : 0 < state.2.size)
    (hlink : state.1.size + 1 < 2 ^ 32) (slot : Slot) :
    relinkSlot state slot = some (Table.relinkSlot state slot) := by
  cases slot with
  | vacant nextFree => rfl
  | occupied e =>
    have hown := bucketAmong_lt hpos e.hash
    simp only [relinkSlot, bucket_eq hpos, link_of_lt hlink, write_of_lt hown,
      Option.bind_eq_bind, Option.bind_some]
    rfl

/-- The row grows by a slot at each step, so its numbers fit while there are slots left. -/
theorem foldlM_relinkSlot (slots : List Slot) {state : Array Slot × Array Link}
    (hpos : 0 < state.2.size) (hlink : state.1.size + slots.length < 2 ^ 32) :
    slots.foldlM relinkSlot state = some (slots.foldl Table.relinkSlot state) := by
  induction slots generalizing state with
  | nil => rfl
  | cons slot slots ih =>
    rw [List.length_cons] at hlink
    have hsizes : (Table.relinkSlot state slot).1.size = state.1.size + 1 ∧
        (Table.relinkSlot state slot).2.size = state.2.size := by
      cases slot <;> simp [Table.relinkSlot]
    rw [List.foldlM_cons, relinkSlot_eq hpos (by omega), List.foldl_cons]
    exact ih (hsizes.2.symm ▸ hpos) (by omega)

theorem relink_eq (h : t.WellFormed) (hlink : t.slots.size < 2 ^ 32) {count : Nat}
    (hpos : 0 < count) (hroom : t.slots.size ≤ count) :
    relink t count = some (t.relink count) := by
  obtain ⟨chain, free, hlaid⟩ := h.laid
  obtain ⟨-, -, hsize, -⟩ := relink_laid hlaid hpos
  have hfold : t.slots.foldlM relinkSlot (#[], Array.replicate count none) =
      some (t.slots.foldl Table.relinkSlot (#[], Array.replicate count none)) := by
    rw [← Array.foldlM_toList, ← Array.foldl_toList]
    exact foldlM_relinkSlot t.slots.toList (by simpa using hpos) (by simpa using hlink)
  have hsub : sub count (t.relink count).slots.size = some _ := sub_of_le (hsize.symm ▸ hroom)
  rw [relink, hfold]
  show (sub count (t.relink count).slots.size >>= fun _ => some (t.relink count)) = _
  rw [hsub]
  rfl

theorem grow_eq (h : t.WellFormed) (hlink : t.maxCapacity < 2 ^ 32) : grow t = some t.grow := by
  have hpos := h.capacity_pos
  have hslots := h.slots_le
  have hmax := h.capacity_le
  rw [grow, Table.grow]
  split
  · rfl
  · rw [relink_eq h (by omega) (by omega) (by omega)]
    rfl

theorem extend_eq (t : Table) : extend t = some t.extend := by
  simp [extend, Table.extend, sub]

theorem freshSlot_eq (h : t.WellFormed) (hlink : t.maxCapacity < 2 ^ 32) :
    freshSlot t = some t.freshSlot := by
  have hroom : makeRoom t =
      some (if t.slots.size = t.capacity then t.grow else (.ok (), t)) := by
    unfold makeRoom
    split
    · exact grow_eq h hlink
    · rfl
  rw [freshSlot, hroom, Table.freshSlot]
  generalize (if t.slots.size = t.capacity then t.grow else (.ok (), t)) = grown
  obtain ⟨_ | _, t'⟩ := grown
  · rfl
  · simp only [Option.bind_eq_bind, Option.bind_some, extend_eq]

/-- The free list leads to a vacant slot, where it leads to one. -/
theorem takeSlot_eq (h : t.WellFormed) (hlink : t.maxCapacity < 2 ^ 32) :
    takeSlot t = some t.takeSlot := by
  obtain ⟨chain, free, hlaid⟩ := h.laid
  rw [takeSlot, Table.takeSlot]
  cases hhead : t.freeHead with
  | none => exact freshSlot_eq h hlink
  | some index =>
    obtain ⟨nextFree, rest, -, hslot, -, hcount⟩ := hlaid.of_freeHead hhead
    have hone : 1 ≤ t.freeCount := hcount ▸ Nat.le_add_left ..
    simp only [freeLink?_eq_some_iff.2 hslot, hslot, sub_of_le hone, Option.bind_eq_bind,
      Option.bind_some]

theorem place_eq (hpos : 0 < t.capacity) (hindex : index < t.slots.size)
    (hlink : index + 1 < 2 ^ 32) (hash : UInt64) (key value : Bytes) :
    place t index hash key value = some (t.place index hash key value) := by
  have hown : bucketAmong t.buckets.size hash < t.buckets.size := bucketAmong_lt hpos hash
  rw [place, bucket_eq hpos]
  simp only [Option.bind_eq_bind, Option.bind_some]
  rw [write_of_lt hindex, link_of_lt hlink]
  simp only [Option.bind_some]
  rw [write_of_lt hown]
  rfl

theorem set_eq (h : t.WellFormed) (hlink : t.maxCapacity < 2 ^ 32) (hash : UInt64)
    (key value : Bytes) : set t hash key value = some (t.set hash key value) := by
  rw [set, find_eq h, Table.set]
  cases hfind : t.find? hash key with
  | some index =>
    obtain ⟨e, he⟩ := entry_of_find h hfind
    simp only [Option.bind_eq_bind, Option.bind_some, update_of_entry he]
  | none =>
    simp only [Option.bind_eq_bind, Option.bind_some, takeSlot_eq h hlink]
    rcases h.takeSlot_cases with ⟨-, index, t', htake, hreserved⟩ | ⟨-, htake⟩
    · have hindex := hreserved.index_lt
      have hslots := hreserved.slots_le
      have hmax := hreserved.capacity_le
      have hsame := hreserved.maxCapacity
      simp only [htake]
      rw [place_eq (by omega) hindex (by omega)]
      rfl
    · simp only [htake]

/-- The entry before the one that is taken out has to be there. -/
theorem unlink_eq (h : t.WellFormed) (hash : UInt64) {p : Place}
    (hprevious : ∀ previous, p.previous = some previous → ∃ e, t.entryAt? previous = some e) :
    unlink t hash p = some (t.unlink hash p) := by
  rw [unlink, Table.unlink]
  cases hp : p.previous with
  | none =>
    have hown : bucketAmong t.buckets.size hash < t.buckets.size :=
      bucketAmong_lt h.capacity_pos hash
    simp only [bucket_eq h.capacity_pos, Option.bind_eq_bind, Option.bind_some]
    rw [write_of_lt hown]
    rfl
  | some previous =>
    obtain ⟨e, he⟩ := hprevious previous hp
    exact update_of_entry he _

theorem release_eq (hindex : index < t.slots.size) (hlink : index + 1 < 2 ^ 32)
    (hsize : 0 < t.size) : release t index = some (t.release index) := by
  rw [release, write_of_lt hindex, link_of_lt hlink, sub_of_le hsize]
  rfl

theorem erase_eq (h : t.WellFormed) (hlink : t.maxCapacity < 2 ^ 32) (hash : UInt64)
    (key : Bytes) : erase t hash key = some (t.erase hash key) := by
  obtain ⟨passed, hlocate, -⟩ := locate_eq h hash key
  obtain ⟨chain, free, hlaid⟩ := h.laid
  have hchain := hlaid.isChain (h.bucketOf_lt hash)
  rw [erase, hlocate, Table.erase]
  rcases h.locate_cases hlaid hash key with
    ⟨front, index, rest, e, hpath, he, -, hplace⟩ | ⟨-, hplace⟩
  · have hindex : index < t.slots.size :=
      (Array.getElem?_eq_some_iff.1 (entryAt?_eq_some_iff.1 he)).1
    have hslots := h.slots_le
    have hmax := h.capacity_le
    have hsize : 0 < t.size := h.size_pos he
    have hprevious : ∀ previous, front.getLast? = some previous →
        ∃ e, t.entryAt? previous = some e := by
      intro previous hlast
      obtain ⟨e, he, -⟩ := hchain.entries previous
        (hpath ▸ List.mem_append_left _ (List.mem_of_getLast? hlast))
      exact ⟨e, entryAt?_eq_some_iff.2 he⟩
    simp only [hplace, Option.bind_eq_bind, Option.bind_some]
    rw [unlink_eq h hash hprevious]
    simp only [Option.bind_some]
    rw [release_eq (by simpa using hindex) (by omega) (by simpa using hsize)]
    rfl
  · rw [hplace]
    rfl

/-- **No check fails**, and a call does what `Table.perform` does. -/
theorem perform_eq (h : t.WellFormed) (hlink : t.maxCapacity < 2 ^ 32) (call : Call) :
    perform t call = some (t.perform call) := by
  cases call with
  | set hash key value =>
    rw [perform, set_eq h hlink]
    rfl
  | get hash key =>
    rw [perform, get_eq h]
    rfl
  | erase hash key =>
    rw [perform, erase_eq h hlink]
    rfl

end Checked

/-! ### Runs of calls -/

/-- Nothing goes wrong with the next call of the table, whichever it is. -/
structure Safe (t : Table) : Prop where
  /-- Every check succeeds, and the call does what it does without them. -/
  perform_eq : ∀ call, Checked.perform t call = some (t.perform call)
  /-- The walk for a key ends. It passes occupied slots, none of them twice, and no more of them
  than there are entries; and where it finds one there is an entry to count. -/
  walk : ∀ hash key, ∃ passed, Checked.locate t hash key = some (passed, t.locate? hash key) ∧
    passed.Nodup ∧ passed.length ≤ t.size ∧
    (∀ index ∈ passed, ∃ e, t.slots[index]? = some (.occupied e)) ∧
    ((t.locate? hash key).isSome → 0 < t.size)
  /-- The free list leads to a vacant slot, which is counted. -/
  freeHead : ∀ index, t.freeHead = some index →
    (∃ nextFree, t.slots[index]? = some (.vacant nextFree)) ∧ 0 < t.freeCount
  /-- A slot that is taken for an entry is vacant, on no chain, and no longer on the free list. -/
  takeSlot : ∀ index t', t.takeSlot = (.ok index, t') →
    (∃ nextFree, t'.slots[index]? = some (.vacant nextFree)) ∧
    (∀ bucket < t'.capacity, ∃ path, t'.IsChain bucket path ∧ index ∉ path) ∧
    ∃ free, Leads t'.freeLink? t'.freeHead free ∧ index ∉ free
  /-- Every slot has a number of 32 bits. -/
  slots_lt : t.slots.size < 2 ^ 32

variable {t t' : Table} {index : Nat}

/-- A slot that is ready for an entry is on none of the lists. -/
theorem Reserved.apart (h : t.Reserved index t') :
    (∃ nextFree, t'.slots[index]? = some (.vacant nextFree)) ∧
      (∀ bucket < t'.capacity, ∃ path, t'.IsChain bucket path ∧ index ∉ path) ∧
      ∃ free, Leads t'.freeLink? t'.freeHead free ∧ index ∉ free := by
  obtain ⟨chain, free, hlaid⟩ := h.laid
  refine ⟨?_, ?_, free, hlaid.frees, by simp [hlaid.mem_free]⟩
  · rw [← isSome_freeLink?_iff, ← Option.ne_none_iff_isSome]
    intro hnone
    have hbound := isSome_bindingAt?_iff.2 ⟨h.index_lt, hnone⟩
    rw [h.binding, h.unbound] at hbound
    cases hbound
  · intro bucket hbucket
    exact ⟨chain bucket, hlaid.isChain hbucket, by simp [hlaid.mem_chain bucket hbucket]⟩

/-- **A well-formed table is safe** if there are links for as many slots as it may grow to. -/
theorem WellFormed.safe (h : t.WellFormed) (hlink : t.maxCapacity < 2 ^ 32) : t.Safe := by
  have hslots := h.slots_le
  have hmax := h.capacity_le
  refine ⟨Checked.perform_eq h hlink, ?_, ?_, ?_, by omega⟩
  · intro hash key
    obtain ⟨passed, hlocate, hnodup, hlength, hoccupied⟩ := Checked.locate_eq h hash key
    refine ⟨passed, hlocate, hnodup, hlength, hoccupied, ?_⟩
    intro hfound
    obtain ⟨p, hp⟩ := Option.isSome_iff_exists.1 hfound
    have hfind : t.find? hash key = some p.index := by
      rw [find?, hp]
      rfl
    obtain ⟨e, he⟩ := Checked.entry_of_find h hfind
    exact h.size_pos he
  · intro index hhead
    obtain ⟨chain, free, hlaid⟩ := h.laid
    obtain ⟨nextFree, rest, -, hslot, -, hcount⟩ := hlaid.of_freeHead hhead
    exact ⟨⟨nextFree, hslot⟩, hcount ▸ Nat.succ_pos _⟩
  · intro index t' htake
    rcases h.takeSlot_cases with ⟨-, index', t'', htake', hreserved⟩ | ⟨-, htake'⟩
    · rw [htake] at htake'
      cases htake'
      exact hreserved.apart
    · rw [htake] at htake'
      cases htake'

/-- **Every run of calls leaves a safe table**, whether its calls succeed or fail. -/
theorem run_safe (wanted maxWanted : Nat) (calls : List Call) :
    (Calls.run perform (create wanted maxWanted) calls).2.Safe := by
  obtain ⟨-, h⟩ := run_holds wanted maxWanted calls
  have hmax := roundMax_le maxWanted
  refine h.wellFormed.safe ?_
  rw [h.maxCapacity]
  exact Nat.lt_of_le_of_lt hmax (by decide)

/-- Three entries in one chain: the walk for the oldest passes them all. -/
example :
    let t := (Calls.run perform (create 1 4) [.set 7 [1] [], .set 7 [2] [], .set 7 [3] []]).2
    (Checked.locate t 7 [1]).map Prod.fst = some [2, 1, 0] := by
  decide

/-- No calls lead to a chain that comes back to itself; the walk along one would not end. -/
example :
    let e : Entry := ⟨7, some 0, Blob.copyOf [1], Blob.copyOf []⟩
    Checked.locate ⟨#[some 0], #[.occupied e], none, 0, 1, 1⟩ 7 [2] = none := by
  decide

end RespStore.Table
