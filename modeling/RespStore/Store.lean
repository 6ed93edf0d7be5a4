import RespStore.Table.Basic
import RespStore.Text.Record
import RespStore.Word

/-!
# RespStore.Store

The key-value store that all connections share. Keys are spread over shards, which are tables;
the high bits of a key's hash choose its shard and the low bits its bucket there, so the two
choices do not depend on each other.

The store counts its live keys, its lookups and its writes. A lookup changes the store only in
its counter, which is why it returns one.

The operations take the hash function as an argument. It is XXH3 wherever nothing else is said, and
the store relies on nothing but that it is a function of the bytes.
-/

namespace RespStore

/-- A sharded store. -/
structure Store where
  shards : Array Table
  /-- The number of bits of a hash that choose a shard. -/
  bits : Nat
  /-- The number of live keys. -/
  keys : Nat
  /-- The number of lookups so far. -/
  lookups : Nat
  /-- The number of writes so far, those that failed included. -/
  writes : Nat

/-- What a store tells about itself. -/
structure StoreStats where
  keys : Nat
  lookups : Nat
  writes : Nat
  shards : Nat
  deriving Repr, DecidableEq

namespace Store

/-- An empty store with `count` shards, or the next power of two. The first power of two beyond a
word comes round to zero, so more than `2 ^ 63` shards are none at all. -/
def create (count : Nat) : Store :=
  let rounded := PowerOfTwo.ceil count
  { shards := Array.replicate (Word.wrap rounded) Table.standard
    bits := rounded.log2
    keys := 0
    lookups := 0
    writes := 0 }

/-- The number of shards. -/
def shardCount (s : Store) : Nat := s.shards.size

/-- The shard that a hash belongs to, by its high bits. -/
def shardIndex (s : Store) (hash : UInt64) : Nat := hash.toNat >>> (64 - s.bits)

/-- The shard that a key belongs to. -/
def shardFor (s : Store) (key : Bytes) (digest : Bytes → UInt64 := Xxh3.hash) : Nat :=
  s.shardIndex (digest key)

/-- The table of a shard. -/
def shard (s : Store) (index : Nat) : Table := s.shards.getD index default

/-- Applies an operation to the table of a shard. The store lets go of the table while the
operation works on it, so that the table can be changed in place. -/
def onShard {α : Type} (s : Store) (index : Nat) (f : Table → α × Table) : α × Store :=
  let t := s.shard index
  let shards := s.shards.setIfInBounds index default
  let (a, t) := f t
  (a, { s with shards := shards.setIfInBounds index t })

theorem onShard_eq {α : Type} (s : Store) (index : Nat) (f : Table → α × Table) :
    s.onShard index f =
      ((f (s.shard index)).1,
        { s with shards := s.shards.setIfInBounds index (f (s.shard index)).2 }) := by
  simp [onShard]

/-- The value of a key, without counting the lookup. -/
def peek? (s : Store) (key : Bytes) (digest : Bytes → UInt64 := Xxh3.hash) : Option Bytes :=
  (s.shard (s.shardFor key digest)).get? (digest key) key

/-- Looks up the value of a key. -/
def get? (s : Store) (key : Bytes) (digest : Bytes → UInt64 := Xxh3.hash) :
    Option Bytes × Store :=
  (s.peek? key digest, { s with lookups := s.lookups + 1 })

/-- Looks up the value of a key and applies `f` to it. -/
def getWith? {α : Type} (s : Store) (key : Bytes) (f : Bytes → α)
    (digest : Bytes → UInt64 := Xxh3.hash) : Option α × Store :=
  let (value, s) := s.get? key digest
  (value.map f, s)

/-- Stores a value. -/
def set (s : Store) (key value : Bytes) (digest : Bytes → UInt64 := Xxh3.hash) :
    Except StoreError Stored × Store :=
  let hash := digest key
  let (result, s) := s.onShard (s.shardIndex hash) fun t => t.set hash key value
  let s := { s with writes := s.writes + 1 }
  match result with
  | .ok .inserted => (.ok .inserted, { s with keys := s.keys + 1 })
  | .ok .updated => (.ok .updated, s)
  | .error error => (.error error, s)

/-- Removes a key, and tells whether it was present. -/
def erase (s : Store) (key : Bytes) (digest : Bytes → UInt64 := Xxh3.hash) : Bool × Store :=
  let hash := digest key
  let (removed, s) := s.onShard (s.shardIndex hash) fun t => t.erase hash key
  if removed then (true, { s with keys := s.keys - 1 }) else (false, s)

/-- The number of live keys. -/
def size (s : Store) : Nat := s.keys

/-- The store holds no keys. -/
def isEmpty (s : Store) : Bool := s.size == 0

/-- The counts of the store. -/
def stats (s : Store) : StoreStats := ⟨s.keys, s.lookups, s.writes, s.shardCount⟩

/-- The store for people to read. -/
def describe (s : Store) : String :=
  Text.record "Storage" [("shards", toString s.shardCount), ("key_count", toString s.keys),
    ("get_count", toString s.lookups), ("set_count", toString s.writes)]

end Store
end RespStore
