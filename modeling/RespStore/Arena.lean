import RespStore.PowerOfTwo
import RespStore.Text.Record

/-!
# RespStore.Arena

The memory account of a connection. An arena hands out memory from a fixed capacity by counting
the bytes in use, and takes everything back at once when it is reset, so that a client cannot
make its connection hold memory without bound.

A growable arena doubles its capacity until a request fits, up to a ceiling that all arenas
share. A request that fails in the end leaves the capacity doubled. Every operation therefore
returns the arena with its answer, whether it succeeds or not.
-/

namespace RespStore

/-- Why memory was not handed out. -/
inductive ArenaError
  /-- A capacity that is out of range or no power of two. -/
  | invalidCapacity (capacity : Nat)
  /-- The request does not fit, and the arena cannot grow. -/
  | exhausted (requested used capacity : Nat)
  /-- The size of the request is beyond what memory can hold. -/
  | overflow
  deriving Repr, DecidableEq

/-- The wording of an error. -/
def ArenaError.message : ArenaError → String
  | .invalidCapacity capacity =>
    s!"invalid arena capacity {capacity}: must be a power of two between 1 KiB and 128 MiB"
  | .exhausted requested used capacity =>
    s!"arena exhausted: requested {requested} bytes with {used} of {capacity} in use"
  | .overflow => "allocation size overflow"

/-- How many bytes a slot of some kind takes, and where it may start. -/
structure Layout where
  size : Nat
  align : Nat
  deriving Repr, DecidableEq

/-- The layout of single bytes. -/
def Layout.byte : Layout := ⟨1, 1⟩

namespace Arena

/-- The least capacity of an arena. -/
def minCapacity : Nat := 1024

/-- The greatest capacity of an arena. -/
def maxCapacity : Nat := 128 * 1024 * 1024

/-- The capacities an arena may be created with. -/
def isValidCapacity (capacity : Nat) : Bool :=
  minCapacity ≤ capacity && capacity ≤ maxCapacity && PowerOfTwo.test capacity

theorem isValidCapacity_iff {capacity : Nat} :
    isValidCapacity capacity = true ↔
      minCapacity ≤ capacity ∧ capacity ≤ maxCapacity ∧ PowerOfTwo.test capacity = true := by
  simp only [isValidCapacity, Bool.and_eq_true, decide_eq_true_eq, and_assoc]

/-- Doubling leads from a valid capacity to a valid one, up to the greatest. -/
theorem isValidCapacity_double {capacity : Nat} (h : isValidCapacity capacity = true)
    (hlt : capacity < maxCapacity) : isValidCapacity (2 * capacity) = true := by
  rw [isValidCapacity_iff] at h ⊢
  obtain ⟨hmin, -, htest⟩ := h
  have hmax : PowerOfTwo.test maxCapacity = true := by decide
  exact ⟨by omega, PowerOfTwo.two_mul_le_of_test htest hmax hlt, PowerOfTwo.test_two_mul htest⟩

end Arena

/-- The account of an arena. -/
structure Arena where
  /-- The bytes it may hand out. -/
  capacity : Nat
  /-- The bytes it has handed out since the last reset. -/
  used : Nat
  /-- It may double its capacity. -/
  growable : Bool
  valid : Arena.isValidCapacity capacity = true
  used_le : used ≤ capacity
  deriving Repr, DecidableEq

namespace Arena

theorem capacity_pos (a : Arena) : 0 < a.capacity :=
  Nat.lt_of_lt_of_le (by decide) (isValidCapacity_iff.1 a.valid).1

theorem capacity_le (a : Arena) : a.capacity ≤ maxCapacity := (isValidCapacity_iff.1 a.valid).2.1

/-- A new arena with nothing in use. -/
def create (growable : Bool) (capacity : Nat) : Except ArenaError Arena :=
  if h : isValidCapacity capacity = true then
    .ok ⟨capacity, 0, growable, h, Nat.zero_le _⟩
  else
    .error (.invalidCapacity capacity)

/-- Twice the capacity, where the arena may grow. -/
def double? (a : Arena) : Option Arena :=
  if h : a.growable = true ∧ a.capacity < maxCapacity then
    some ⟨2 * a.capacity, a.used, a.growable, isValidCapacity_double a.valid h.2,
      Nat.le_trans a.used_le (Nat.le_mul_of_pos_left _ (by decide))⟩
  else
    none

theorem capacity_double? {a b : Arena} (h : a.double? = some b) :
    b.capacity = 2 * a.capacity ∧ a.capacity < maxCapacity := by
  unfold double? at h
  split at h
  · next hc => cases h; exact ⟨rfl, hc.2⟩
  · cases h

/-- Doubles the capacity until `bytes` more fit or the arena can grow no further. -/
def fit (a : Arena) (bytes : Nat) : Arena :=
  if a.used + bytes ≤ a.capacity then a
  else
    match _h : a.double? with
    | some b => b.fit bytes
    | none => a
termination_by maxCapacity - a.capacity
decreasing_by
  have := capacity_double? _h
  have := a.capacity_pos
  omega

/-- Hands out `bytes` bytes. -/
def reserve (a : Arena) (bytes : Nat) : Except ArenaError Unit × Arena :=
  let a := a.fit bytes
  if h : a.used + bytes ≤ a.capacity then
    (.ok (), { a with used := a.used + bytes, used_le := h })
  else
    (.error (.exhausted bytes a.used a.capacity), a)

/-- The size of `count` slots, which has to stay below half the address space even when it is
rounded up to where a slot may start. -/
def sizeOf? (slot : Layout) (count : Nat) : Option Nat :=
  if slot.size * count ≤ (1 <<< 63) - slot.align then some (slot.size * count) else none

/-- Hands out `count` slots. -/
def allocate (a : Arena) (slot : Layout) (count : Nat) : Except ArenaError Unit × Arena :=
  match sizeOf? slot count with
  | some bytes => a.reserve bytes
  | none => (.error .overflow, a)

/-- Takes everything back. The capacity stays as it is. -/
def reset (a : Arena) : Arena := { a with used := 0, used_le := Nat.zero_le _ }

/-- Doubles the capacity and answers with the new one. -/
def grow (a : Arena) : Except ArenaError Nat × Arena :=
  match a.double? with
  | some b => (.ok b.capacity, b)
  | none => (.error (.exhausted a.capacity a.used a.capacity), a)

/-- The account for people to read. -/
def describe (a : Arena) : String :=
  Text.record "Arena" [("capacity", toString a.capacity), ("allocated", toString a.used),
    ("growable", toString a.growable)]

end Arena
end RespStore
