import RespStore.Blob
import RespStore.PowerOfTwo

/-!
# RespStore.Table.Basic

A hash table with chaining. Entries live in a row of slots; a bucket holds the index of the first
entry of its chain, and each entry holds the index of the next. The bucket of an entry is given
by the low bits of its hash, so there are always a power of two of them.

A slot whose entry was removed joins a free list, which runs through the vacant slots themselves,
and is the first to be filled again. The table takes a slot it has never used only when the free
list is empty, and when it has used as many slots as it has buckets it doubles the buckets and
links every entry anew.

An operation that may fail returns the table with its answer, whether it fails or not.

Keys are compared together with their hashes, which the caller supplies; nothing here depends on
how a hash comes about.
-/

namespace RespStore

/-- The index of a slot, or the end of a chain. -/
abbrev Link := Option Nat

/-- A key with its value. -/
structure Entry where
  hash : UInt64
  /-- The next entry of the chain. -/
  next : Link
  key : Blob
  value : Blob
  deriving Repr, DecidableEq

/-- The entry is the one for this key. -/
def Entry.isFor (e : Entry) (hash : UInt64) (key : Bytes) : Bool :=
  e.hash == hash && e.key.bytes == key

/-- A slot of a table. -/
inductive Slot
  | occupied (entry : Entry)
  /-- A slot on the free list, with the one after it. -/
  | vacant (nextFree : Link)
  deriving Repr, DecidableEq

namespace Slot

/-- The entry in the slot. -/
def content? : Slot → Option Entry
  | .occupied e => some e
  | .vacant _ => none

/-- Changes the entry in the slot. -/
def update (f : Entry → Entry) : Slot → Slot
  | .occupied e => .occupied (f e)
  | .vacant nextFree => .vacant nextFree

@[simp] theorem content?_update (f : Entry → Entry) (s : Slot) :
    (s.update f).content? = s.content?.map f := by cases s <;> rfl

end Slot

/-- What a successful write did. -/
inductive Stored
  /-- The key was new. -/
  | inserted
  /-- The key had a value, which was replaced. -/
  | updated
  deriving Repr, DecidableEq

/-- Why a key could not be stored. -/
inductive StoreError
  /-- All the slots there may be are occupied. -/
  | capacityExceeded (capacity : Nat)
  deriving Repr, DecidableEq

/-- The wording of an error. -/
def StoreError.message : StoreError → String
  | .capacityExceeded capacity => s!"shard capacity exceeded ({capacity} entries)"

/-- A hash table. -/
structure Table where
  /-- The first entry of each chain. -/
  buckets : Array Link
  /-- The slots that were ever used. -/
  slots : Array Slot
  /-- The first slot of the free list. -/
  freeHead : Link
  /-- The number of slots on the free list. -/
  freeCount : Nat
  /-- The number of entries. -/
  size : Nat
  /-- The number of slots the table may grow to. -/
  maxCapacity : Nat
  deriving Repr, DecidableEq

namespace Table

/-! ### Tables without entries -/

/-- The slots of a table that is created without a size. -/
def standardCapacity : Nat := 64

/-- The most slots of any table. -/
def ceiling : Nat := 1 <<< 28

/-- The number of slots a table may grow to when `wanted` are asked for. -/
def roundMax (wanted : Nat) : Nat := PowerOfTwo.ceil (max 1 (min ceiling wanted))

/-- The number of slots a table begins with when `wanted` are asked for. -/
def roundCapacity (wanted maxCapacity : Nat) : Nat :=
  PowerOfTwo.ceil (max 1 (min maxCapacity wanted))

/-- A table with about `capacity` slots that may grow to about `maxCapacity`. -/
def create (capacity maxCapacity : Nat) : Table :=
  let maxCapacity := roundMax maxCapacity
  { buckets := Array.replicate (roundCapacity capacity maxCapacity) none
    slots := #[]
    freeHead := none
    freeCount := 0
    size := 0
    maxCapacity }

/-- A table of the usual size. -/
def standard : Table := create standardCapacity ceiling

instance : Inhabited Table := ⟨standard⟩

/-- The number of slots before the table has to grow. -/
def capacity (t : Table) : Nat := t.buckets.size

/-- The table has no entries. -/
def isEmpty (t : Table) : Bool := t.size == 0

/-! ### Looking up -/

/-- The bucket of a hash among `count`. -/
def bucketAmong (count : Nat) (hash : UInt64) : Nat := hash.toNat &&& (count - 1)

theorem bucketAmong_lt {count : Nat} (h : 0 < count) (hash : UInt64) :
    bucketAmong count hash < count := by
  have : hash.toNat &&& (count - 1) ≤ count - 1 := Nat.and_le_right
  unfold bucketAmong
  omega

/-- The bucket of a hash. -/
def bucketOf (t : Table) (hash : UInt64) : Nat := bucketAmong t.buckets.size hash

/-- The first entry of the chain for a hash. -/
def head (t : Table) (hash : UInt64) : Link := t.buckets.getD (t.bucketOf hash) none

/-- The entry at an index. -/
def entryAt? (t : Table) (index : Nat) : Option Entry := t.slots[index]?.bind Slot.content?

/-- Where in its chain an entry stands. -/
structure Place where
  index : Nat
  previous : Link
  next : Link
  deriving Repr, DecidableEq

/-- Follows a chain from `link`, for at most `steps` entries, to the entry for a key. -/
def follow (t : Table) (hash : UInt64) (key : Bytes) : (steps : Nat) → (previous link : Link) →
    Option Place
  | 0, _, _ => none
  | _ + 1, _, none => none
  | steps + 1, previous, some index =>
    match t.entryAt? index with
    | none => none
    | some e =>
      if e.isFor hash key then some ⟨index, previous, e.next⟩
      else t.follow hash key steps (some index) e.next

/-- The place of the entry for a key. A chain has no more entries than there are slots. -/
def locate? (t : Table) (hash : UInt64) (key : Bytes) : Option Place :=
  t.follow hash key t.slots.size none (t.head hash)

/-- The slot of a key. -/
def find? (t : Table) (hash : UInt64) (key : Bytes) : Option Nat :=
  (t.locate? hash key).map Place.index

/-- The value of a key. -/
def get? (t : Table) (hash : UInt64) (key : Bytes) : Option Bytes := do
  let index ← t.find? hash key
  let e ← t.entryAt? index
  some e.value.bytes

/-! ### Storing -/

/-- Links the entry in a slot at the head of its chain, after the slots in `done`. -/
def relinkSlot (state : Array Slot × Array Link) (slot : Slot) : Array Slot × Array Link :=
  let (done, buckets) := state
  match slot with
  | .occupied e =>
    let bucket := bucketAmong buckets.size e.hash
    let next := buckets.getD bucket none
    let index := done.size
    (done.push (.occupied { e with next }), buckets.setIfInBounds bucket (some index))
  | .vacant nextFree => (done.push (.vacant nextFree), buckets)

/-- Links every entry anew among `count` buckets, in the order of the slots. -/
def relink (t : Table) (count : Nat) : Table :=
  let (slots, buckets) := t.slots.foldl relinkSlot (#[], Array.replicate count none)
  { t with slots, buckets }

/-- Makes room for twice as many slots, if there may be as many. -/
def grow (t : Table) : Except StoreError Unit × Table :=
  if t.maxCapacity ≤ t.capacity then (.error (.capacityExceeded t.capacity), t)
  else (.ok (), t.relink (2 * t.capacity))

/-- Begins to use one slot more. -/
def extend (t : Table) : Nat × Table :=
  (t.slots.size, { t with slots := t.slots.push (.vacant none) })

/-- A slot that was never used before, growing the table if it has none. -/
def freshSlot (t : Table) : Except StoreError Nat × Table :=
  let (room, t) := if t.slots.size = t.capacity then t.grow else (.ok (), t)
  match room with
  | .ok () =>
    let (index, t) := t.extend
    (.ok index, t)
  | .error error => (.error error, t)

/-- A slot for a new entry: the first on the free list, or a fresh one. -/
def takeSlot (t : Table) : Except StoreError Nat × Table :=
  match t.freeHead with
  | some index =>
    match t.slots[index]? with
    | some (.vacant nextFree) =>
      (.ok index, { t with freeHead := nextFree, freeCount := t.freeCount - 1 })
    -- the free list leads through vacant slots only
    | _ => t.freshSlot
  | none => t.freshSlot

/-- Puts a new entry into a slot, at the head of its chain. -/
def place (t : Table) (index : Nat) (hash : UInt64) (key value : Bytes) : Table :=
  let e : Entry := ⟨hash, t.head hash, Blob.copyOf key, Blob.copyOf value⟩
  let bucket := t.bucketOf hash
  { t with
    slots := t.slots.setIfInBounds index (.occupied e)
    buckets := t.buckets.setIfInBounds bucket (some index)
    size := t.size + 1 }

/-- Stores a value. A key that is present keeps its slot, and its value keeps its buffer if the
new bytes fit there. -/
def set (t : Table) (hash : UInt64) (key value : Bytes) : Except StoreError Stored × Table :=
  match t.find? hash key with
  | some index =>
    let store (e : Entry) : Entry := { e with value := e.value.replace value }
    (.ok .updated, { t with slots := t.slots.modify index (Slot.update store) })
  | none =>
    match t.takeSlot with
    | (.ok index, t) => (.ok .inserted, t.place index hash key value)
    | (.error error, t) => (.error error, t)

/-! ### Removing -/

/-- Takes an entry out of its chain. -/
def unlink (t : Table) (hash : UInt64) (p : Place) : Table :=
  match p.previous with
  | none =>
    let bucket := t.bucketOf hash
    { t with buckets := t.buckets.setIfInBounds bucket p.next }
  | some previous =>
    let skip (e : Entry) : Entry := { e with next := p.next }
    { t with slots := t.slots.modify previous (Slot.update skip) }

/-- Puts a slot at the head of the free list. -/
def release (t : Table) (index : Nat) : Table :=
  { t with
    slots := t.slots.setIfInBounds index (.vacant t.freeHead)
    freeHead := some index
    freeCount := t.freeCount + 1
    size := t.size - 1 }

/-- Removes a key, and tells whether it was present. -/
def erase (t : Table) (hash : UInt64) (key : Bytes) : Bool × Table :=
  match t.locate? hash key with
  | some p => (true, (t.unlink hash p).release p.index)
  | none => (false, t)

end Table
end RespStore
