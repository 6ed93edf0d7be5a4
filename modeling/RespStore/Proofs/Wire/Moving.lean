import Mathlib.Order.Monotone.Basic
import RespStore.Proofs.Calls
import RespStore.Proofs.Wire.Checked

/-!
# RespStore.Proofs.Wire.Moving

Whole runs of pushes to a batch. Its arena may be asked for other slots between them, so any push
may find that there is no room to move to.

`Memory` is the batch as a machine has it: the row of slots that it is in, and those that it has
left. A full batch is given another row and moves over slot by slot, so that the requests are in
neither row as a whole while it lasts, and an empty request stays behind for each of them. A sum
that is no word, a slot beyond the row and a view beyond it give `none`.

What a push does to the memory is one of three (`Memory.push_cases`). Therefore no check fails, the
memory is that of the batch (`Shows.perform`), and the requests are known from the answers of a run,
as are the sizes of all rows (`Grown.perform`).
-/

namespace RespStore.Batch

/-! ### Calls -/

/-- A call of a batch, or of its arena for something else. -/
inductive Call
  | push (r : Request)
  | allocate (slot : Layout) (count : Nat)

/-- Makes a call. A batch that finds no room stays as it is. -/
def perform (s : Batch × Arena) : Call → Except ArenaError Unit × Batch × Arena
  | .push r =>
    match s.1.push s.2 r with
    | (.ok b, a) => (.ok (), b, a)
    | (.error error, a) => (.error error, s.1, a)
  | .allocate slot count =>
    let (result, a) := s.2.allocate slot count
    (result, s.1, a)

/-- The request that a call with this answer has added. -/
def added? : Call × Except ArenaError Unit → Option Request
  | (.push r, .ok ()) => some r
  | _ => none

/-- The bytes that a call with this answer has taken for something else. -/
def elsewhere : Call × Except ArenaError Unit → Nat
  | (.allocate slot count, .ok ()) => slot.size * count
  | _ => 0

/-! ### The batch in memory -/

/-- A batch in memory, with its arena. -/
structure Memory where
  arena : Arena
  /-- The rows of slots that the batch has left, in the order in which it was in them. -/
  left : List (List Request)
  /-- The row that it is in. -/
  row : List Request
  /-- The number of slots in use. -/
  used : Nat

/-- Moves requests from the slots of one row to those of another, as long as there are slots in
both. -/
def moveOver : List Request → List Request → List Request × List Request
  | r :: old, _ :: new =>
    let (old, new) := moveOver old new
    (default :: old, r :: new)
  | old, new => (old, new)

namespace Memory

/-- The sizes of the rows, in the order in which they were reserved. -/
def sizes (m : Memory) : List Nat := (m.left ++ [m.row]).map List.length

/-- The requests of the batch, which are no more than there are slots. -/
def requests (m : Memory) : Option (List Request) :=
  if m.used ≤ m.row.length then some (m.row.take m.used) else none

/-- The memory with a request in the next slot. -/
def add (m : Memory) (r : Request) : Memory :=
  { m with row := m.row.set m.used r, used := m.used + 1 }

/-- Puts a request into the next slot, which there has to be. -/
def put (m : Memory) (r : Request) : Option Memory :=
  if m.used < m.row.length then some (m.add r) else none

/-- Moves the batch to another row. -/
def move (m : Memory) (arena : Arena) (new : List Request) : Memory :=
  let (old, row) := moveOver m.row new
  { m with arena, left := m.left ++ [old], row }

/-- Adds a request. -/
def push (m : Memory) (r : Request) : Option (Except ArenaError Unit × Memory) :=
  if m.used = m.row.length then do
    let twice ← Checked.add m.row.length m.row.length
    let count := max 1 twice
    match ← Checked.allocate m.arena entry count with
    | (.ok (), arena) =>
      let m ← (m.move arena (List.replicate count default)).put r
      some (.ok (), m)
    | (.error error, arena) => some (.error error, { m with arena })
  else do
    let m ← m.put r
    some (.ok (), m)

/-- Makes a call. -/
def perform (m : Memory) : Call → Option (Except ArenaError Unit × Memory)
  | .push r => m.push r
  | .allocate slot count => do
    let (result, arena) ← Checked.allocate m.arena slot count
    some (result, { m with arena })

end Memory

/-- The memory of a batch that has not moved yet. -/
def memory (b : Batch) (a : Arena) : Memory := ⟨a, [], b.cells.toList, b.used⟩

/-! ### One push -/

/-- Moving over leaves an empty request for each one that was moved. -/
theorem moveOver_of_le {old new : List Request} (h : old.length ≤ new.length) :
    moveOver old new = (List.replicate old.length default, old ++ new.drop old.length) := by
  induction old generalizing new with
  | nil => cases new <;> rfl
  | cons r old ih =>
    cases new with
    | nil => exact absurd h (Nat.not_succ_le_zero _)
    | cons _ new =>
      rw [moveOver, ih (Nat.le_of_succ_le_succ h)]
      rfl

namespace Memory

variable {m : Memory}

/-- The memory of a batch that has moved to a row of `count` slots. -/
def widen (m : Memory) (arena : Arena) (count : Nat) : Memory where
  arena
  left := m.left ++ [List.replicate m.row.length default]
  row := m.row ++ List.replicate (count - m.row.length) default
  used := m.used

theorem move_replicate {count : Nat} (h : m.row.length ≤ count) (arena : Arena) :
    m.move arena (List.replicate count default) = m.widen arena count := by
  rw [move, moveOver_of_le (by rwa [List.length_replicate]), List.drop_replicate]
  rfl

theorem length_widen {count : Nat} (h : m.row.length ≤ count) (arena : Arena) :
    (m.widen arena count).row.length = count := by
  rw [widen, List.length_append, List.length_replicate]
  omega

theorem sizes_widen {count : Nat} (h : m.row.length ≤ count) (arena : Arena) :
    (m.widen arena count).sizes = m.sizes ++ [count] := by
  rw [sizes, List.map_append, List.map_singleton, length_widen h]
  simp [sizes, widen]

@[simp] theorem sizes_add (m : Memory) (r : Request) : (m.add r).sizes = m.sizes := by
  simp [sizes, add]

@[simp] theorem length_add (m : Memory) (r : Request) :
    (m.add r).row.length = m.row.length := List.length_set

theorem take_add (h : m.used < m.row.length) (r : Request) :
    (m.add r).row.take (m.add r).used = m.row.take m.used ++ [r] := by
  have hlt : m.used < (m.row.set m.used r).length := by rwa [List.length_set]
  rw [add]
  dsimp only
  rw [List.take_succ_eq_append_getElem hlt, List.getElem_set_self,
    List.take_set_of_le (Nat.le_refl _)]

theorem put_of_lt (h : m.used < m.row.length) (r : Request) : m.put r = some (m.add r) := if_pos h

theorem requests_of_le (h : m.used ≤ m.row.length) :
    m.requests = some (m.row.take m.used) := if_pos h

/-- **A push is one of three.** There is a slot to spare; or there is none and the batch moves to a
row of twice the size; or it is given no such row, and nothing of it changes. -/
theorem push_cases (hused : m.used ≤ m.row.length)
    (hword : m.row.length + m.row.length < Word.size) (r : Request) :
    (m.used < m.row.length ∧ m.push r = some (.ok (), m.add r)) ∨
      (m.used = m.row.length ∧ ∃ arena,
        m.arena.allocate entry (max 1 (2 * m.row.length)) = (.ok (), arena) ∧
          m.push r = some (.ok (), (m.widen arena (max 1 (2 * m.row.length))).add r)) ∨
      (m.used = m.row.length ∧ ∃ error arena,
        m.arena.allocate entry (max 1 (2 * m.row.length)) = (.error error, arena) ∧
          m.push r = some (.error error, { m with arena })) := by
  rcases Nat.lt_or_eq_of_le hused with hspare | hfull
  · left
    refine ⟨hspare, ?_⟩
    rw [push, if_neg (Nat.ne_of_lt hspare), put_of_lt hspare]
    rfl
  · right
    rw [push, if_pos hfull, Checked.add_of_lt hword, ← Nat.two_mul]
    simp only [Option.bind_eq_bind, Option.bind_some]
    rw [Checked.allocate_eq, Option.bind_some]
    obtain ⟨result, arena⟩ := m.arena.allocate entry (max 1 (2 * m.row.length))
    cases result with
    | error error => exact .inr ⟨hfull, error, arena, rfl, rfl⟩
    | ok =>
      have hle : m.row.length ≤ max 1 (2 * m.row.length) := by omega
      have hspare : (m.widen arena (max 1 (2 * m.row.length))).used <
          (m.widen arena (max 1 (2 * m.row.length))).row.length := by
        rw [length_widen hle]
        show m.used < _
        omega
      refine .inl ⟨hfull, arena, rfl, ?_⟩
      dsimp only
      rw [move_replicate hle, put_of_lt hspare]
      rfl

end Memory

/-- The memory is that of the batch and its arena. -/
structure Shows (m : Memory) (s : Batch × Arena) : Prop where
  arena : m.arena = s.2
  row : m.row = s.1.cells.toList
  used : m.used = s.1.used

variable {m : Memory} {s : Batch × Arena}

theorem Shows.length (h : Shows m s) : m.row.length = s.1.capacity := by
  rw [h.row, Array.length_toList]
  rfl

theorem Shows.le (h : Shows m s) : m.used ≤ m.row.length := by
  rw [h.length, h.used]
  exact s.1.used_le

theorem Shows.requests (h : Shows m s) : m.requests = some s.1.toList := by
  rw [Memory.requests_of_le h.le, h.row, h.used]
  rfl

/-- Filling the next slot, in the batch as in memory. -/
theorem Shows.add {b : Batch} {a : Arena} (h : Shows m (b, a)) (hspare : b.used < b.capacity)
    (r : Request) : Shows (m.add r) (b.add r, a) := by
  have hlt : b.used < b.cells.size := hspare
  refine ⟨h.arena, ?_, ?_⟩
  · show m.row.set m.used r = (Slots.add b r).cells.toList
    rw [h.row, h.used]
    simp only [Slots.add, dif_pos hlt, Array.toList_set]
  · show m.used + 1 = (Slots.add b r).used
    rw [Slots.used_add hspare, h.used]

/-- Moving to a larger row, in the batch as in memory. -/
theorem Shows.widen {b : Batch} {a : Arena} (h : Shows m (b, a)) (arena : Arena) (count : Nat) :
    Shows (m.widen arena count) (b.widen count, arena) := by
  refine ⟨rfl, ?_, h.used⟩
  show m.row ++ List.replicate (count - m.row.length) default = (Slots.widen b count).cells.toList
  rw [h.length, h.row, Slots.widen, Array.toList_append, Array.toList_replicate]
  rfl

theorem push_of_spare {b : Batch} (h : b.used < b.capacity) (a : Arena) (r : Request) :
    b.push a r = (.ok (b.add r), a) := by
  rw [push, if_neg (mt Slots.isFull_iff.1 (Nat.not_le.2 h))]

/-- A full batch moves if it is given a row, and stays as it is if not. -/
theorem push_of_full {b : Batch} (h : b.capacity ≤ b.used) (a : Arena) (r : Request) :
    b.push a r =
      ((a.allocate entry (max 1 (2 * b.capacity))).1.map
          fun _ => (b.widen (max 1 (2 * b.capacity))).add r,
        (a.allocate entry (max 1 (2 * b.capacity))).2) := by
  rw [push, if_pos (Slots.isFull_iff.2 h)]
  dsimp only
  split
  · next hallocate => rw [hallocate]; rfl
  · next hallocate => rw [hallocate]; rfl

/-- **The memory goes on showing the batch**, and gives the same answers. -/
theorem Shows.perform (h : Shows m s) (hword : m.row.length + m.row.length < Word.size)
    (call : Call) :
    ∃ m', m.perform call = some ((Batch.perform s call).1, m') ∧
      Shows m' (Batch.perform s call).2 := by
  obtain ⟨b, a⟩ := s
  cases call with
  | allocate slot count =>
    refine ⟨{ m with arena := (a.allocate slot count).2 }, ?_, rfl, h.row, h.used⟩
    rw [Memory.perform, Checked.allocate_eq, h.arena]
    rfl
  | push r =>
    have hlength : m.row.length = b.capacity := h.length
    have hused : m.used = b.used := h.used
    have harena : m.arena = a := h.arena
    rcases m.push_cases h.le hword r with
      ⟨hspare, hpush⟩ | ⟨hfull, arena, hallocate, hpush⟩ | ⟨hfull, error, arena, hallocate, hpush⟩
    · have hroom : b.used < b.capacity := by omega
      rw [Memory.perform, hpush, Batch.perform, push_of_spare hroom]
      exact ⟨_, rfl, h.add hroom r⟩
    · have hno : b.capacity ≤ b.used := by omega
      rw [harena, hlength] at hallocate
      rw [Memory.perform, hpush, Batch.perform, push_of_full hno, hallocate, hlength]
      exact ⟨_, rfl, (h.widen arena _).add (Checked.room_of_widen b) r⟩
    · have hno : b.capacity ≤ b.used := by omega
      rw [harena, hlength] at hallocate
      rw [Memory.perform, hpush, Batch.perform, push_of_full hno, hallocate]
      exact ⟨_, rfl, rfl, h.row, hused⟩

/-! ### Rows -/

/-- The size of the `i`-th row of a batch that began with `first` slots. -/
def rowSize (first : Nat) : Nat → Nat
  | 0 => first
  | i + 1 => max 1 (2 * rowSize first i)

/-- The numbers `size 0`, `size 1` and so on, up to the first that is `count` at least. -/
def UpTo (size : Nat → Nat) (count : Nat) (sizes : List Nat) : Prop :=
  ∃ k, sizes = (List.range (k + 1)).map size ∧ count ≤ size k ∧ ∀ j, count ≤ size j → k ≤ j

theorem rowSize_strictMono (first : Nat) : StrictMono (rowSize first) := by
  refine strictMono_nat_of_lt_succ ?_
  intro i
  rw [rowSize]
  omega

/-- The next row is the first with more slots than the one before it. -/
theorem upTo_next (first k : Nat) :
    UpTo (rowSize first) (rowSize first k + 1)
      ((List.range (k + 1)).map (rowSize first) ++ [rowSize first (k + 1)]) := by
  refine ⟨k + 1, ?_, rowSize_strictMono first (Nat.lt_succ_self k), ?_⟩
  · rw [List.range_succ (n := k + 1), List.map_append, List.map_singleton]
  · intro j hj
    exact (rowSize_strictMono first).lt_iff_lt.1 hj

theorem rowSize_initialCapacity (i : Nat) : rowSize initialCapacity i = 16 * 2 ^ i := by
  induction i with
  | zero => rfl
  | succ i ih =>
    have := Nat.two_pow_pos i
    rw [rowSize, ih, Nat.pow_succ]
    omega

theorem rowSize_zero (i : Nat) : rowSize 0 i = 2 ^ i / 2 := by
  induction i with
  | zero => rfl
  | succ i ih =>
    have := Nat.two_pow_pos i
    rw [rowSize, ih]
    cases i with
    | zero => rfl
    | succ i =>
      rw [Nat.pow_succ, Nat.mul_div_cancel _ (by decide), Nat.pow_succ,
        Nat.mul_div_cancel _ (by decide)]
      have := Nat.two_pow_pos i
      omega

/-! ### Runs -/

/-- A row that was not granted takes nothing from the arena. -/
theorem arena_used_of_error {a b : Arena} {count : Nat} {error : ArenaError}
    (h : a.allocate entry count = (.error error, b)) : b.used = a.used := by
  rcases a.spends_allocate entry count with ⟨_, hok, -⟩ | ⟨_, _, herror, hspends⟩
  · rw [h] at hok
    cases hok
  · rw [h] at herror
    cases herror
    exact hspends.used

variable {start : Arena} {first : Nat} {log : List (Call × Except ArenaError Unit)}

/-- What the answers in `log` tell of the memory of a batch that began with `first` slots. -/
structure Grown (start : Arena) (first : Nat) (log : List (Call × Except ArenaError Unit))
    (m : Memory) : Prop where
  le : m.used ≤ m.row.length
  take : m.row.take m.used = log.filterMap added?
  sizes : UpTo (rowSize first) m.used m.sizes
  spent : m.arena.used = start.used + entry.size * m.sizes.sum + (log.map elsewhere).sum

namespace Grown

theorem used (h : Grown start first log m) : m.used = (log.filterMap added?).length := by
  rw [← h.take, List.length_take, Nat.min_eq_left h.le]

/-- The row that the batch is in is the last of those that were reserved. -/
theorem sizes_row (h : Grown start first log m) :
    ∃ k, m.sizes = (List.range (k + 1)).map (rowSize first) ∧ m.row.length = rowSize first k ∧
      ∀ j, m.used ≤ rowSize first j → k ≤ j := by
  obtain ⟨k, hsizes, -, hleast⟩ := h.sizes
  refine ⟨k, hsizes, ?_, hleast⟩
  rw [Memory.sizes, List.map_append, List.range_succ, List.map_append] at hsizes
  have hlast := (List.append_inj' hsizes rfl).2
  simpa using hlast

/-- All rows together fit in the arena, so twice the slots of one can be counted. -/
theorem word (h : Grown start first log m) :
    m.row.length + m.row.length < Word.size := by
  have hspent := h.spent
  have hused : m.arena.used ≤ 2 ^ 27 := m.arena.used_le.trans m.arena.capacity_le
  have hsum : m.sizes.sum = (m.left.map List.length).sum + m.row.length := by
    simp [Memory.sizes]
  have hentry : entry.size = 24 := rfl
  rw [hsum, hentry] at hspent
  unfold Word.size
  omega

/-- **One push.** -/
theorem push (h : Grown start first log m) {r : Request} {answer : Except ArenaError Unit}
    {m' : Memory} (hpush : m.push r = some (answer, m')) :
    Grown start first (log ++ [(.push r, answer)]) m' := by
  obtain ⟨k, hsizes, hrow, hleast⟩ := h.sizes_row
  rcases m.push_cases h.le h.word r with
    ⟨hspare, hcase⟩ | ⟨hfull, arena, hallocate, hcase⟩ | ⟨hfull, error, arena, hallocate, hcase⟩
  all_goals
    rw [hcase] at hpush
    cases hpush
  · refine ⟨?_, ?_, ⟨k, ?_, ?_, ?_⟩, ?_⟩
    · rw [Memory.length_add]
      exact hspare
    · rw [Memory.take_add hspare, h.take, List.filterMap_append]
      rfl
    · rw [Memory.sizes_add, hsizes]
    · exact hrow ▸ hspare
    · intro j hj
      exact hleast j (Nat.le_of_succ_le hj)
    · rw [Memory.sizes_add, List.map_append, List.sum_append]
      exact h.spent
  · -- one row more, of the next size
    have hnext : max 1 (2 * m.row.length) = rowSize first (k + 1) := by rw [hrow, rowSize]
    have hmore : rowSize first k < rowSize first (k + 1) :=
      rowSize_strictMono first (Nat.lt_succ_self k)
    rw [hnext] at hallocate ⊢
    have hle : m.row.length ≤ rowSize first (k + 1) := by omega
    have hlength := Memory.length_widen hle arena
    have hspare : m.used < rowSize first (k + 1) := by omega
    have hspent : arena.used = m.arena.used + entry.size * rowSize first (k + 1) :=
      (Arena.spends_of_allocate (show entry.align ≤ 8 by decide) hallocate).2.used
    refine ⟨?_, ?_, ?_, ?_⟩
    · rw [Memory.length_add, hlength]
      exact hspare
    · rw [Memory.take_add (hlength.symm ▸ hspare), List.filterMap_append, ← h.take]
      exact congrArg (· ++ [r]) (List.take_append_of_le_length h.le)
    · rw [Memory.sizes_add, Memory.sizes_widen hle, hsizes]
      show UpTo _ (m.used + 1) _
      rw [hfull, hrow]
      exact upTo_next first k
    · rw [Memory.sizes_add, Memory.sizes_widen hle, List.map_append, List.sum_append,
        List.sum_append, List.sum_singleton, Nat.mul_add]
      show arena.used = _
      rw [hspent, h.spent]
      show _ = _ + (_ + 0)
      omega
  · have hspent := arena_used_of_error hallocate
    refine ⟨h.le, ?_, h.sizes, ?_⟩
    · rw [List.filterMap_append, ← h.take]
      exact (List.append_nil _).symm
    · rw [List.map_append, List.sum_append]
      exact hspent.trans h.spent

/-- **One call.** -/
theorem perform (h : Grown start first log m) {call : Call} {answer : Except ArenaError Unit}
    {m' : Memory} (hperform : m.perform call = some (answer, m')) :
    Grown start first (log ++ [(call, answer)]) m' := by
  cases call with
  | push r => exact h.push hperform
  | allocate slot count =>
    rw [Memory.perform, Checked.allocate_eq] at hperform
    have hadded (answer : Except ArenaError Unit) :
        (log ++ [(Call.allocate slot count, answer)]).filterMap added? = log.filterMap added? := by
      rw [List.filterMap_append]
      exact List.append_nil _
    rcases m.arena.spends_allocate slot count with ⟨arena, hallocate, hspends⟩ |
      ⟨error, arena, hallocate, hspends⟩
    all_goals
      rw [hallocate] at hperform
      cases hperform
      refine ⟨h.le, h.take.trans (hadded _).symm, h.sizes, ?_⟩
      rw [List.map_append, List.sum_append]
      show arena.used = _
      rw [hspends.used, h.spent, Nat.add_assoc]
      rfl

end Grown

/-- **A run of calls**: no check fails, and the memory goes on showing the batch. -/
theorem run_grown (hgrown : Grown start first log m) (hshows : Shows m s) (calls : List Call) :
    ∃ m', Calls.run? Memory.perform m calls = some ((Calls.run perform s calls).1, m') ∧
      Shows m' (Calls.run perform s calls).2 ∧
      Grown start first (log ++ calls.zip (Calls.run perform s calls).1) m' := by
  induction calls generalizing log m s with
  | nil => exact ⟨m, rfl, hshows, by simpa using hgrown⟩
  | cons call calls ih =>
    obtain ⟨m₁, hcall, hshows₁⟩ := hshows.perform hgrown.word call
    obtain ⟨m', hrun, hshows', hgrown'⟩ := ih (hgrown.perform hcall) hshows₁
    refine ⟨m', ?_, hshows', ?_⟩
    · rw [Calls.run?, hcall]
      simp only [Option.bind_eq_bind, Option.bind_some]
      rw [hrun, Calls.run_cons]
      rfl
    · rw [List.append_assoc] at hgrown'
      exact hgrown'

/-- What is known of a batch after the calls in `log`. It began in the arena `start`, and `size i`
is the size of its `i`-th row. -/
structure Outcome (start : Arena) (size : Nat → Nat) (log : List (Call × Except ArenaError Unit))
    (m : Memory) (s : Batch × Arena) : Prop where
  shows : Shows m s
  /-- It holds the requests that were pushed with success, as they were pushed, in their order. -/
  requests : m.requests = some (log.filterMap added?)
  toList : s.1.toList = log.filterMap added?
  /-- It has been in a row of each size up to the first that is large enough, and in no other. -/
  sizes : UpTo size (log.filterMap added?).length m.sizes
  spent : m.arena.used = start.used + entry.size * m.sizes.sum + (log.map elsewhere).sum
  /-- The next push succeeds if there is a slot to spare or a row of twice the size is granted. -/
  next : ∀ r, ∃ answer m', m.push r = some (answer, m') ∧ (perform s (.push r)).1 = answer ∧
    (answer = .ok () ↔ m.used < m.row.length ∨
      ∃ arena, m.arena.allocate entry (max 1 (2 * m.row.length)) = (.ok (), arena)) ∧
    (answer ≠ .ok () → m'.requests = m.requests ∧ m'.used = m.used ∧ m'.row = m.row ∧
      m'.left = m.left ∧ m'.arena.used = m.arena.used)

/-- What the next push does, from the cases of a push. -/
theorem Grown.next (hgrown : Grown start first log m) (hshows : Shows m s) (r : Request) :
    ∃ answer m', m.push r = some (answer, m') ∧ (Batch.perform s (.push r)).1 = answer ∧
      (answer = .ok () ↔ m.used < m.row.length ∨
        ∃ arena, m.arena.allocate entry (max 1 (2 * m.row.length)) = (.ok (), arena)) ∧
      (answer ≠ .ok () → m'.requests = m.requests ∧ m'.used = m.used ∧ m'.row = m.row ∧
        m'.left = m.left ∧ m'.arena.used = m.arena.used) := by
  obtain ⟨m', hpush, -⟩ := hshows.perform hgrown.word (.push r)
  refine ⟨_, m', hpush, rfl, ?_⟩
  change m.push r = _ at hpush
  rcases m.push_cases hgrown.le hgrown.word r with
    ⟨hspare, hcase⟩ | ⟨hfull, arena, hallocate, hcase⟩ | ⟨hfull, error, arena, hallocate, hcase⟩
  all_goals
    rw [hcase, Option.some.injEq, Prod.mk.injEq] at hpush
    obtain ⟨hanswer, rfl⟩ := hpush
    rw [← hanswer]
  · exact ⟨iff_of_true rfl (.inl hspare), fun hne => absurd rfl hne⟩
  · exact ⟨iff_of_true rfl (.inr ⟨arena, hallocate⟩), fun hne => absurd rfl hne⟩
  · refine ⟨iff_of_false (by simp) ?_, fun _ => ⟨rfl, rfl, rfl, rfl, arena_used_of_error hallocate⟩⟩
    rintro (hspare | ⟨_, hok⟩)
    · omega
    · rw [hallocate] at hok
      cases hok

/-- A batch with `first` slots and nothing in them. -/
theorem grown_ofCapacity {a : Arena} (hspent : a.used = start.used + entry.size * first) :
    Grown start first [] (memory (Slots.ofCapacity first) a) := by
  have hsizes : (memory (Slots.ofCapacity first) a).sizes = [first] := by
    simp [Memory.sizes, memory, Slots.ofCapacity]
  refine ⟨Nat.zero_le _, rfl, ⟨0, hsizes, Nat.zero_le _, fun j _ => Nat.zero_le j⟩, ?_⟩
  rw [hsizes, List.sum_singleton]
  exact hspent

theorem shows_memory (b : Batch) (a : Arena) : Shows (memory b a) (b, a) := ⟨rfl, rfl, rfl⟩

/-- **What a run makes of an empty batch.** -/
theorem run_outcome {a : Arena} (hspent : a.used = start.used + entry.size * first)
    (calls : List Call) :
    let b : Batch := Slots.ofCapacity first
    let run := Calls.run perform (b, a) calls
    ∃ m, Calls.run? Memory.perform (memory b a) calls = some (run.1, m) ∧
      Outcome start (rowSize first) (calls.zip run.1) m run.2 := by
  intro b run
  obtain ⟨m, hrun, hshows, hgrown⟩ := run_grown (grown_ofCapacity hspent) (shows_memory b a) calls
  rw [List.nil_append] at hgrown
  have hrequests : m.requests = some ((calls.zip run.1).filterMap added?) := by
    rw [Memory.requests_of_le hgrown.le, hgrown.take]
  refine ⟨m, hrun, hshows, hrequests, ?_, ?_, hgrown.spent, hgrown.next hshows⟩
  · rw [hshows.requests, Option.some.injEq] at hrequests
    exact hrequests
  · exact hgrown.used ▸ hgrown.sizes

/-- **A batch is an append-only list through every move.** Take a batch that has just been made, in
any arena, and make any calls, of which some may find no room. Just the requests that were pushed
with success are in it, in their order, and each is what was pushed. The rows it has reserved are
those of 16, 32 and so on slots, up to the first that has one for each of them, and the arena has
handed out these rows besides what was asked for elsewhere.

The next push succeeds if and only if there is a slot to spare or the arena grants twice as many
slots as there are. One that fails leaves the requests, their number, the row and the bytes in use
as they were. No check in memory fails.

The same holds of a batch that begins with no slots, but its rows have 0, 1, 2, 4 and so on. -/
theorem run_appends (start : Arena) (calls : List Call) :
    (∀ b a, reserve start = (.ok b, a) →
      let run := Calls.run perform (b, a) calls
      ∃ m, Calls.run? Memory.perform (memory b a) calls = some (run.1, m) ∧
        Outcome start (fun i => 16 * 2 ^ i) (calls.zip run.1) m run.2) ∧
      let run := Calls.run perform (default, start) calls
      ∃ m, Calls.run? Memory.perform (memory default start) calls = some (run.1, m) ∧
        Outcome start (fun i => 2 ^ i / 2) (calls.zip run.1) m run.2 := by
  refine ⟨?_, ?_⟩
  · intro b a hreserve
    rw [← funext rowSize_initialCapacity]
    rw [reserve] at hreserve
    split at hreserve
    · next a' hallocate =>
      cases hreserve
      have hspends := Arena.spends_of_allocate (show entry.align ≤ 8 by decide) hallocate
      exact run_outcome hspends.2.used calls
    · cases hreserve
  · rw [← funext rowSize_zero]
    exact run_outcome rfl calls

/-- The batch moves once. For the thirty-third request there is no room to move to, and the others
stay. -/
theorem run_appends_thirty_two :
    let start : Arena := ⟨2048, 0, false, by decide, by decide⟩
    let request (n : Nat) : Request := (Slots.ofCapacity 1).add [n.toUInt8]
    let calls := (List.range 33).map fun n => Call.push (request n)
    ∃ b a, reserve start = (.ok b, a) ∧
      let run := Calls.run perform (b, a) calls
      run.1 = List.replicate 32 (.ok ()) ++ [.error (.exhausted 1536 1152 2048)] ∧
        run.2.1.toList = (List.range 32).map request ∧
        ∃ m, Calls.run? Memory.perform (memory b a) calls = some (run.1, m) ∧
          m.sizes = [16, 32] ∧ m.requests = some ((List.range 32).map request) := by
  intro start request calls
  let a : Arena := ⟨2048, 384, false, by decide, by decide⟩
  have hallocate : start.allocate entry initialCapacity = (.ok (), a) := by decide +kernel
  have hreserve : reserve start = (.ok (Slots.ofCapacity 16), a) := by
    rw [reserve, hallocate]
    rfl
  have hanswers : (Calls.run perform (Slots.ofCapacity 16, a) calls).1 =
      List.replicate 32 (.ok ()) ++ [.error (.exhausted 1536 1152 2048)] := by decide +kernel
  have hrun := (run_appends start calls).1 _ a hreserve
  refine ⟨_, a, hreserve, ?_⟩
  dsimp only at hrun ⊢
  -- from here on the run is known by its answers alone
  generalize Calls.run perform (Slots.ofCapacity 16, a) calls = run at hanswers hrun ⊢
  obtain ⟨m, hmemory, houtcome⟩ := hrun
  have hadded : (calls.zip run.1).filterMap added? = (List.range 32).map request := by
    rw [hanswers]
    rfl
  have hrequests := houtcome.requests
  have htoList := houtcome.toList
  obtain ⟨k, hsizes, hfits, hleast⟩ := houtcome.sizes
  rw [hadded] at hrequests htoList hfits hleast
  have hk : k ≤ 1 := hleast 1 (by decide)
  refine ⟨hanswers, htoList, m, hmemory, ?_, hrequests⟩
  obtain rfl | rfl : k = 0 ∨ k = 1 := by omega
  · exact absurd hfits (by decide)
  · exact hsizes

end RespStore.Batch
