import RespStore.Table.Basic
import RespStore.Text.Record

/-!
# RespStore.Table.Describe

The layout of a table for people to read. Slots are numbered from one, so that zero stands for
the end of a chain.
-/

namespace RespStore

/-- The number of the slot a link leads to. -/
def Link.number : Link → Nat
  | none => 0
  | some index => index + 1

/-- The link for people to read. -/
def Link.describe (link : Link) : String := toString (Link.number link)

/-- The entry for people to read. -/
def Entry.describe (e : Entry) : String :=
  Text.record "Entry" [("hash", toString e.hash.toNat), ("next", Link.describe e.next),
    ("key", e.key.describe), ("value", e.value.describe)]

/-- The slot for people to read. -/
def Slot.describe : Slot → String
  | .occupied e => "Occupied(" ++ e.describe ++ ")"
  | .vacant nextFree => Text.record "Vacant" [("next_free", Link.describe nextFree)]

/-- The table for people to read. -/
def Table.describe (t : Table) : String :=
  Text.record "Table"
    [("buckets", Text.bracketed (t.buckets.toList.map Link.describe)),
      ("slots", Text.bracketed (t.slots.toList.map Slot.describe)),
      ("free_head", Link.describe t.freeHead), ("free_count", toString t.freeCount),
      ("len", toString t.size), ("max_capacity", toString t.maxCapacity)]

end RespStore
