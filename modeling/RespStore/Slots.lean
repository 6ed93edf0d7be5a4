/-!
# RespStore.Slots

A row of slots that is filled from the front. The number of slots is fixed when the row is made;
what has been put in so far is the view `toList`, and a full row refuses more. A row is made
larger only by moving its contents into a row with more slots.
-/

namespace RespStore

/-- A row of slots, the first `used` of them filled. -/
structure Slots (α : Type) where
  cells : Array α
  used : Nat
  used_le : used ≤ cells.size

namespace Slots

variable {α : Type}

/-- A row of `capacity` slots with nothing in them. -/
def ofCapacity [Inhabited α] (capacity : Nat) : Slots α :=
  ⟨Array.replicate capacity default, 0, Nat.zero_le _⟩

/-- The number of slots. -/
def capacity (s : Slots α) : Nat := s.cells.size

/-- What the filled slots hold, in order. -/
def toList (s : Slots α) : List α := s.cells.toList.take s.used

/-- The filled slot at an index. -/
def get? (s : Slots α) (index : Nat) : Option α :=
  if index < s.used then s.cells[index]? else none

/-- No slot is filled. -/
def isEmpty (s : Slots α) : Bool := s.used == 0

/-- Fills the next slot. A full row stays as it is. -/
def add (s : Slots α) (a : α) : Slots α :=
  if h : s.used < s.cells.size then
    ⟨s.cells.set s.used a h, s.used + 1, by rw [Array.size_set]; exact h⟩
  else
    s

/-- No slot is left. -/
def isFull (s : Slots α) : Bool := s.used == s.capacity

/-- Fills the next slot, if there is one. -/
def push? (s : Slots α) (a : α) : Option (Slots α) := if s.isFull then none else some (s.add a)

/-- Moves the contents into a row of `capacity` slots, or as many as there are now if that is
more. -/
def widen [Inhabited α] (s : Slots α) (capacity : Nat) : Slots α :=
  ⟨s.cells ++ Array.replicate (capacity - s.cells.size) default, s.used, by
    have := s.used_le
    simp only [Array.size_append]
    omega⟩

instance [Inhabited α] : Inhabited (Slots α) := ⟨ofCapacity 0⟩

/-! ### The view -/

@[simp] theorem toList_ofCapacity [Inhabited α] (capacity : Nat) :
    (ofCapacity capacity : Slots α).toList = [] := by
  simp [ofCapacity, toList]

@[simp] theorem length_toList (s : Slots α) : s.toList.length = s.used := by
  have := s.used_le
  simp [toList]
  omega

theorem isFull_iff {s : Slots α} : s.isFull = true ↔ s.capacity ≤ s.used := by
  have := s.used_le
  simp only [isFull, capacity, beq_iff_eq]
  omega

@[simp] theorem capacity_ofCapacity [Inhabited α] (capacity : Nat) :
    (ofCapacity capacity : Slots α).capacity = capacity := Array.size_replicate

@[simp] theorem capacity_add (s : Slots α) (a : α) : (s.add a).capacity = s.capacity := by
  unfold add capacity
  split
  · next h => exact Array.size_set h
  · rfl

theorem used_add {s : Slots α} (h : s.used < s.capacity) (a : α) :
    (s.add a).used = s.used + 1 := by
  rw [add, dif_pos (show s.used < s.cells.size from h)]

theorem toList_add {s : Slots α} (h : s.used < s.capacity) (a : α) :
    (s.add a).toList = s.toList ++ [a] := by
  have hlt : s.used < s.cells.toList.length := by rw [Array.length_toList]; exact h
  simp only [toList, add, dif_pos (show s.used < s.cells.size from h), Array.toList_set]
  rw [List.take_add_one, List.take_set, List.getElem?_set_self hlt, List.set_eq_of_length_le]
  · rfl
  · rw [List.length_take]
    exact Nat.min_le_left ..

/-- Filling as many slots as there are leaves the values in order. -/
theorem toList_foldl_add {s : Slots α} {as : List α} (h : s.used + as.length ≤ s.capacity) :
    (as.foldl add s).toList = s.toList ++ as := by
  induction as generalizing s with
  | nil => simp
  | cons a as ih =>
    rw [List.length_cons] at h
    have hroom : s.used < s.capacity := by omega
    rw [List.foldl_cons, ih (by rw [used_add hroom, capacity_add]; omega), toList_add hroom,
      List.append_assoc, List.singleton_append]

@[simp] theorem used_widen [Inhabited α] (s : Slots α) (capacity : Nat) :
    (s.widen capacity).used = s.used := rfl

theorem capacity_widen [Inhabited α] {s : Slots α} {capacity : Nat} (h : s.capacity ≤ capacity) :
    (s.widen capacity).capacity = capacity := by
  unfold Slots.capacity at h
  simp only [Slots.capacity, widen, Array.size_append, Array.size_replicate]
  omega

@[simp] theorem toList_widen [Inhabited α] (s : Slots α) (capacity : Nat) :
    (s.widen capacity).toList = s.toList := by
  have h : s.used ≤ s.cells.toList.length := by simpa using s.used_le
  simp [widen, toList, List.take_append_of_le_length h]

end Slots
end RespStore
