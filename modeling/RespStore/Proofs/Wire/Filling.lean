import Mathlib.Data.List.GetD
import RespStore.Proofs.Calls
import RespStore.Proofs.Wire.Checked
import RespStore.Wire.SendBuffer

/-!
# RespStore.Proofs.Wire.Filling

Whole runs of calls of a send buffer. A call writes a piece or clears the buffer, and a piece is
written as a whole or not at all.

`Memory` is the buffer as a machine has it: cells that are all there from the start, and a cursor.
The size of a piece is added up first, then so many cells are claimed, and these are cut up and
filled part by part. A sum that is no word, a cut beyond the cells and a part with more or fewer
cells than bytes give `none`. No such check fails (`Memory.perform_eq`): the claimed cells are used
up exactly, and those that are not claimed keep what they hold.

What stands in the buffer after a run is known from the answers alone (`standing`), and what the
next call does is known from the room that is left (`run_fills`).
-/

namespace RespStore.SendBuffer

open RespStore.Checked (add suffix slice add_of_lt suffix_of_le slice_of_le)

/-! ### Pieces -/

/-- Something to write. -/
inductive Piece
  /-- Bytes that are a reply as they are. -/
  | raw (bytes : Bytes)
  /-- A bulk string. -/
  | bulk (payload : Bytes)
  /-- A line that reports a success. -/
  | success (text : Bytes)
  /-- A line that reports an error. -/
  | error (text : Bytes)
  deriving Repr, DecidableEq

namespace Piece

/-- The bytes that the piece is made of. -/
def content : Piece → Bytes
  | raw bytes => bytes
  | bulk payload => payload
  | success text => text
  | error text => text

/-- The piece on the wire. -/
def encode : Piece → Bytes
  | raw bytes => bytes
  | bulk payload => Encoding.bulk payload
  | success text => Encoding.line Encoding.successMark text
  | error text => Encoding.line Encoding.errorMark text

/-- Writes the piece. -/
def put (w : SendBuffer) : Piece → Except WriteError Unit × SendBuffer
  | raw bytes => w.putRaw bytes
  | bulk payload => w.putBulk payload
  | success text => w.putSuccess text
  | error text => w.putError text

/-- The size that a piece is announced with is that of its encoding. -/
theorem put_eq (w : SendBuffer) (p : Piece) : p.put w = w.put p.encode.length p.encode := by
  cases p with
  | raw bytes => rfl
  | bulk payload => rw [put, putBulk, encode, Encoding.length_bulk]
  | success text => rw [put, putSuccess, putLine, encode, Encoding.length_line]
  | error text => rw [put, putError, putLine, encode, Encoding.length_line]

end Piece

/-- A call of the buffer. -/
inductive Call
  /-- Write a piece. -/
  | put (p : Piece)
  /-- Go back to the start. -/
  | clear
  deriving Repr, DecidableEq

/-- Makes a call. Clearing always succeeds. -/
def perform (w : SendBuffer) : Call → Except WriteError Unit × SendBuffer
  | .put p => p.put w
  | .clear => (.ok (), w.clear)

variable {w : SendBuffer} {p : Piece}

theorem put_piece_of_le (h : p.encode.length ≤ w.remaining) :
    p.put w = (.ok (), { w with
      front := w.front ++ p.encode, beyond := w.beyond.drop p.encode.length }) := by
  rw [Piece.put_eq, put_of_le h]

theorem put_piece_of_lt (h : w.remaining < p.encode.length) :
    p.put w = (.error (.full p.encode.length w.remaining), w) := by
  rw [Piece.put_eq, put_of_lt h]

theorem put_piece_eq_ok_iff : (p.put w).1 = .ok () ↔ p.encode.length ≤ w.remaining := by
  rcases Nat.lt_or_ge w.remaining p.encode.length with h | h
  · rw [put_piece_of_lt h]
    simpa using h
  · rw [put_piece_of_le h]
    simpa using h

theorem written_put_piece (h : p.encode.length ≤ w.remaining) :
    (p.put w).2.written = w.written ++ p.encode := by
  rw [Piece.put_eq, written_put h]

theorem position_put_piece (h : p.encode.length ≤ w.remaining) :
    (p.put w).2.position = w.position + p.encode.length := by
  rw [← length_written, written_put_piece h, List.length_append, length_written]

@[simp] theorem capacity_put_piece (w : SendBuffer) (p : Piece) :
    (p.put w).2.capacity = w.capacity := by
  rcases Nat.lt_or_ge w.remaining p.encode.length with h | h
  · rw [put_piece_of_lt h]
  · rw [put_piece_of_le h]

/-! ### Cells -/

theorem cell_of_lt {index : Nat} (h : index < w.written.length) :
    w.cell index = w.written[index] := by
  rw [cell, List.getD_append _ _ _ _ h, List.getD_eq_getElem]

theorem cell_position_add (w : SendBuffer) (index : Nat) :
    w.cell (w.position + index) = w.beyond.getD index 0 := by
  rw [cell, ← length_written, List.getD_append_right _ _ _ _ (Nat.le_add_right ..),
    Nat.add_sub_cancel_left]

/-- What was written stands in the cells before the cursor. -/
theorem take_cells (h : w.position ≤ w.capacity) : w.cells.take w.position = w.written := by
  refine List.ext_getElem (by simpa using h) fun index _ hwritten => ?_
  rw [List.getElem_take, getElem_cells, cell_of_lt hwritten]

/-- A piece that fits goes to the cells from the cursor on. All others keep what they hold. -/
theorem cells_put (h : p.encode.length ≤ w.remaining) (hwithin : w.position ≤ w.capacity) :
    (p.put w).2.cells = w.written ++ p.encode ++ w.cells.drop (w.position + p.encode.length) := by
  have hwritten := written_put_piece h
  have hlength : (w.written ++ p.encode).length = (p.put w).2.position := by
    rw [← hwritten, length_written]
  have hfits : w.position + p.encode.length ≤ w.capacity := by
    unfold remaining at h
    omega
  refine List.ext_getElem (by simp; omega) fun index _ _ => ?_
  rw [getElem_cells]
  rcases Nat.lt_or_ge index (w.written ++ p.encode).length with hlt | hge
  · rw [List.getElem_append_left hlt, cell_of_lt (hwritten ▸ hlt)]
    simp only [hwritten]
  · obtain ⟨rest, rfl⟩ := Nat.exists_eq_add_of_le hge
    rw [List.getElem_append_right hge]
    simp only [Nat.add_sub_cancel_left, List.getElem_drop, getElem_cells]
    rw [hlength, cell_position_add, Nat.add_assoc, cell_position_add, put_piece_of_le h,
      List.getD_eq_getElem?_getD, List.getD_eq_getElem?_getD, List.getElem?_drop]

/-! ### Memory -/

/-- The buffer as a machine has it. -/
structure Memory where
  /-- The cells, all of which are there from the start. -/
  cells : Bytes
  /-- The number of cells that are written. -/
  cursor : Nat
  deriving Repr, DecidableEq

namespace Memory

/-- Cuts off the first `size` cells, if there are so many. -/
def split (cells : Bytes) (size : Nat) : Option (Bytes × Bytes) :=
  if size ≤ cells.length then some (cells.take size, cells.drop size) else none

/-- Sets the first of the cells, if there is one. -/
def setFirst (cells : Bytes) (b : UInt8) : Option Bytes :=
  if 0 < cells.length then some (cells.set 0 b) else none

/-- Copies bytes into the cells, which have to be as many. -/
def copy (cells bytes : Bytes) : Option Bytes :=
  if cells.length = bytes.length then some bytes else none

/-- Lays bytes over the cells, from the first on and as far as there are both. -/
def lay (cells bytes : Bytes) : Bytes := bytes.take cells.length ++ cells.drop bytes.length

/-- The number of bytes of a bulk string. -/
def bulkSize (length : Nat) : Option Nat := do
  let size ← add 1 (Decimal.encode length).length
  let size ← add size Bytes.crlf.length
  let size ← add size length
  add size Bytes.crlf.length

/-- The number of bytes of a line. -/
def lineSize (length : Nat) : Option Nat := do
  let size ← add 1 length
  add size Bytes.crlf.length

/-- The number of cells to claim for a piece. -/
def size : Piece → Option Nat
  | .raw bytes => some bytes.length
  | .bulk payload => bulkSize payload.length
  | .success text => lineSize text.length
  | .error text => lineSize text.length

/-- Fills the cells of a bulk string. -/
def fillBulk (payload cells : Bytes) : Option Bytes := do
  let digits := Decimal.encode payload.length
  let (mark, cells) ← split cells 1
  let mark ← setFirst mark Encoding.bulkMark
  let (count, cells) ← split cells digits.length
  let count ← copy count digits
  let (crlf, cells) ← split cells Bytes.crlf.length
  let crlf ← copy crlf Bytes.crlf
  let (data, ending) ← split cells payload.length
  let data ← copy data payload
  let ending ← copy ending Bytes.crlf
  some (mark ++ count ++ crlf ++ data ++ ending)

/-- Fills the cells of a line. -/
def fillLine (mark : UInt8) (text cells : Bytes) : Option Bytes := do
  let cells ← setFirst cells mark
  let (mark, cells) ← split cells 1
  let cells := mark ++ lay cells (text.map Encoding.unbroken)
  let stop ← add 1 text.length
  let (cells, ending) ← split cells stop
  let ending ← copy ending Bytes.crlf
  some (cells ++ ending)

/-- Fills the cells that were claimed for a piece. -/
def fill : Piece → Bytes → Option Bytes
  | .raw bytes, cells => copy cells bytes
  | .bulk payload, cells => fillBulk payload cells
  | .success text, cells => fillLine Encoding.successMark text cells
  | .error text, cells => fillLine Encoding.errorMark text cells

/-- Writes a piece. The cursor moves when the cells are claimed, before they are filled. -/
def put (m : Memory) (p : Piece) : Option (Except WriteError Unit × Memory) := do
  let size ← size p
  let free ← suffix m.cells m.cursor
  if free.length < size then some (.error (.full size free.length), m)
  else
    let cursor ← add m.cursor size
    let claimed ← slice m.cells m.cursor cursor
    let filled ← fill p claimed
    some (.ok (), ⟨m.cells.take m.cursor ++ lay free filled, cursor⟩)

/-- Makes a call. -/
def perform (m : Memory) : Call → Option (Except WriteError Unit × Memory)
  | .put p => m.put p
  | .clear => some (.ok (), { m with cursor := 0 })

/-- The bytes that are written. -/
def written (m : Memory) : Option Bytes := slice m.cells 0 m.cursor

variable {cells bytes : Bytes}

theorem split_of_le {size : Nat} (h : size ≤ cells.length) :
    split cells size = some (cells.take size, cells.drop size) := if_pos h

theorem copy_of_length_eq (h : cells.length = bytes.length) : copy cells bytes = some bytes :=
  if_pos h

theorem setFirst_of_pos (h : 0 < cells.length) (b : UInt8) :
    setFirst cells b = some (cells.set 0 b) := if_pos h

theorem bulkSize_eq {length : Nat} (h : length < 2 ^ 63) :
    bulkSize length = some (Encoding.bulkSize length) := by
  -- the number of digits is a tenth of the length at most, so that the sum stays below a word
  have hdigits := Decimal.length_encode_le length
  have hsize : Encoding.bulkSize length < Word.size := by
    unfold Encoding.bulkSize Word.size
    rw [Bytes.length_crlf]
    omega
  unfold Encoding.bulkSize at hsize
  simp only [bulkSize, Option.bind_eq_bind]
  rw [add_of_lt (by omega), Option.bind_some, add_of_lt (by omega), Option.bind_some,
    add_of_lt (by omega), Option.bind_some, add_of_lt hsize]
  rfl

theorem lineSize_eq {length : Nat} (h : length < 2 ^ 63) :
    lineSize length = some (Encoding.lineSize length) := by
  have hsize : Encoding.lineSize length < Word.size := by
    unfold Encoding.lineSize Word.size
    rw [Bytes.length_crlf]
    omega
  unfold Encoding.lineSize at hsize
  simp only [lineSize, Option.bind_eq_bind]
  rw [add_of_lt (by omega), Option.bind_some, add_of_lt hsize]
  rfl

theorem size_eq {p : Piece} (h : p.content.Addressable) : size p = some p.encode.length := by
  cases p with
  | raw bytes => rfl
  | bulk payload => exact (bulkSize_eq h).trans (congrArg _ (Encoding.length_bulk payload).symm)
  | success text => exact (lineSize_eq h).trans (congrArg _ (Encoding.length_line _ text).symm)
  | error text => exact (lineSize_eq h).trans (congrArg _ (Encoding.length_line _ text).symm)

/-- **The cells of a bulk string are used up by its parts.** -/
theorem fillBulk_eq {payload : Bytes} (h : cells.length = (Encoding.bulk payload).length) :
    fillBulk payload cells = some (Encoding.bulk payload) := by
  rw [Encoding.length_bulk, Encoding.bulkSize, Bytes.length_crlf] at h
  have hmark : (cells.take 1).set 0 Encoding.bulkMark = [Encoding.bulkMark] := by
    cases cells with
    | nil => simp at h
    | cons b cells => simp
  simp only [fillBulk, Option.bind_eq_bind, Bytes.length_crlf]
  rw [split_of_le (by omega), Option.bind_some]
  rw [setFirst_of_pos (by simp; omega), Option.bind_some, hmark]
  rw [split_of_le (by simp; omega), Option.bind_some]
  rw [copy_of_length_eq (by simp; omega), Option.bind_some]
  rw [split_of_le (by simp; omega), Option.bind_some]
  rw [copy_of_length_eq (by simp; omega), Option.bind_some]
  -- what is left behind the payload is just as long as its end
  rw [split_of_le (by simp; omega), Option.bind_some]
  rw [copy_of_length_eq (by simp; omega), Option.bind_some]
  rw [copy_of_length_eq (by simp; omega), Option.bind_some]
  rfl

theorem lay_of_le (h : bytes.length ≤ cells.length) :
    lay cells bytes = bytes ++ cells.drop bytes.length := by
  rw [lay, List.take_of_length_le h]

/-- **The cells of a line are used up by its mark, its text and its end.** -/
theorem fillLine_eq {mark : UInt8} {text : Bytes} (htext : text.Addressable)
    (h : cells.length = (Encoding.line mark text).length) :
    fillLine mark text cells = some (Encoding.line mark text) := by
  rw [Encoding.length_line, Encoding.lineSize, Bytes.length_crlf] at h
  cases cells with
  | nil => simp at h
  | cons b cells =>
    rw [List.length_cons] at h
    have hstop : 1 + text.length < Word.size := by
      unfold Bytes.Addressable at htext
      unfold Word.size
      omega
    have hlay : lay cells (text.map Encoding.unbroken) =
        text.map Encoding.unbroken ++ cells.drop text.length := by
      rw [lay_of_le (by rw [List.length_map]; omega), List.length_map]
    have hfront : ([mark] ++ text.map Encoding.unbroken).length = 1 + text.length := by
      rw [List.length_append, List.length_singleton, List.length_map]
    simp only [fillLine, Option.bind_eq_bind]
    rw [setFirst_of_pos (by simp), Option.bind_some, List.set_cons_zero]
    rw [split_of_le (by simp), Option.bind_some, List.take_succ_cons, List.take_zero,
      List.drop_one, List.tail_cons]
    rw [hlay, ← List.append_assoc, add_of_lt hstop, Option.bind_some]
    rw [split_of_le (by simp; omega), Option.bind_some, List.take_left' hfront,
      List.drop_left' hfront]
    rw [copy_of_length_eq (by simp; omega), Option.bind_some]
    rfl

/-- What is claimed for a piece is filled with its encoding. -/
theorem fill_eq {p : Piece} (hp : p.content.Addressable) (h : cells.length = p.encode.length) :
    fill p cells = some p.encode := by
  cases p with
  | raw bytes => exact copy_of_length_eq h
  | bulk payload => exact fillBulk_eq h
  | success text => exact fillLine_eq hp h
  | error text => exact fillLine_eq hp h

end Memory

/-- The cells and the cursor of the buffer. -/
def memory (w : SendBuffer) : Memory := ⟨w.cells, w.position⟩

namespace Memory

/-- **No check fails when a piece is written**, and all the cells end up as in `w`. -/
theorem put_eq (hwithin : w.position ≤ w.capacity) (hw : w.capacity < 2 ^ 63)
    (hp : p.content.Addressable) :
    w.memory.put p = some ((p.put w).1, (p.put w).2.memory) := by
  have hfree : (w.cells.drop w.position).length = w.remaining := by
    rw [List.length_drop, length_cells, remaining]
  simp only [put, memory, Option.bind_eq_bind]
  rw [size_eq hp, Option.bind_some, suffix_of_le (by rw [length_cells]; exact hwithin),
    Option.bind_some, hfree]
  split
  · next hshort => rw [put_piece_of_lt hshort]
  · next hfits =>
    have hfits := Nat.le_of_not_lt hfits
    have hcursor : w.position + p.encode.length ≤ w.cells.length := by
      rw [length_cells]
      unfold remaining at hfits
      omega
    have hclaimed : (w.cells.slice w.position (w.position + p.encode.length)).length =
        p.encode.length := by
      rw [Bytes.length_slice hcursor, Nat.add_sub_cancel_left]
    have hword : w.position + p.encode.length < Word.size := by
      rw [length_cells] at hcursor
      unfold Word.size
      omega
    rw [add_of_lt hword, Option.bind_some]
    rw [slice_of_le (Nat.le_add_right ..) hcursor, Option.bind_some]
    rw [fill_eq hp hclaimed, Option.bind_some]
    rw [take_cells hwithin, lay_of_le (by rw [hfree]; exact hfits), List.drop_drop,
      ← List.append_assoc, ← cells_put hfits hwithin, ← position_put_piece hfits,
      put_piece_of_le hfits]

theorem written_eq (hwithin : w.position ≤ w.capacity) : w.memory.written = some w.written := by
  rw [written, memory, slice_of_le (Nat.zero_le _) (by rw [length_cells]; exact hwithin),
    Bytes.slice, List.drop_zero, Nat.sub_zero, take_cells hwithin]

end Memory

/-! ### Runs -/

/-- The pieces that stand in the buffer after one more call with its answer. -/
def standing (pieces : List Piece) : Call × Except WriteError Unit → List Piece
  | (.clear, _) => []
  | (.put p, .ok ()) => pieces ++ [p]
  | (.put _, .error _) => pieces

/-- Memory has room for what is written. -/
def Call.Addressable : Call → Prop
  | .put p => p.content.Addressable
  | .clear => True

instance : (call : Call) → Decidable call.Addressable
  | .put _ => inferInstanceAs (Decidable (_ < _))
  | .clear => inferInstanceAs (Decidable True)

/-- The buffer holds these pieces and nothing else, and is not overrun. -/
structure Holds (pieces : List Piece) (w : SendBuffer) : Prop where
  written : w.written = pieces.flatMap Piece.encode
  within : w.position ≤ w.capacity

variable {pieces : List Piece}

/-- A buffer into which nothing was written since it was cleared, whatever its cells hold. -/
theorem Holds.of_isEmpty (h : w.isEmpty = true) : Holds [] w := by
  have hposition : w.position = 0 := by simpa [isEmpty] using h
  refine ⟨List.length_eq_zero_iff.1 hposition, ?_⟩
  rw [hposition]
  exact Nat.zero_le _

theorem capacity_perform (w : SendBuffer) (call : Call) :
    (perform w call).2.capacity = w.capacity := by
  cases call with
  | put p => exact capacity_put_piece w p
  | clear => rfl

/-- **One call.** What stands in the buffer afterwards is known from the answer. -/
theorem Holds.perform (h : Holds pieces w) (call : Call) :
    Holds (standing pieces (call, (perform w call).1)) (perform w call).2 := by
  cases call with
  | clear => exact ⟨rfl, Nat.zero_le _⟩
  | put p =>
    rw [SendBuffer.perform]
    rcases Nat.lt_or_ge w.remaining p.encode.length with hshort | hfits
    · rw [put_piece_of_lt hshort]
      exact h
    · have hanswer : (p.put w).1 = .ok () := by rw [put_piece_of_le hfits]
      rw [hanswer]
      refine ⟨?_, ?_⟩
      · rw [written_put_piece hfits, h.written, standing, List.flatMap_append,
          List.flatMap_singleton]
      · have := h.within
        rw [position_put_piece hfits, capacity_put_piece]
        unfold remaining at hfits
        omega

theorem run_holds (h : Holds pieces w) (calls : List Call) :
    Holds ((calls.zip (Calls.run perform w calls).1).foldl standing pieces)
        (Calls.run perform w calls).2 ∧
      (Calls.run perform w calls).2.capacity = w.capacity := by
  induction calls generalizing w pieces with
  | nil => exact ⟨h, rfl⟩
  | cons call calls ih =>
    obtain ⟨hholds, hcapacity⟩ := ih (h.perform call)
    rw [Calls.run_cons]
    exact ⟨hholds, hcapacity.trans (capacity_perform w call)⟩

/-- **No check fails in a run.** -/
theorem Memory.run_eq (h : Holds pieces w) (hw : w.capacity < 2 ^ 63) {calls : List Call}
    (hcalls : ∀ call ∈ calls, call.Addressable) :
    Calls.run? Memory.perform w.memory calls =
      some ((Calls.run SendBuffer.perform w calls).1,
        (Calls.run SendBuffer.perform w calls).2.memory) := by
  refine Calls.run?_eq_of (P := fun w => (∃ pieces, Holds pieces w) ∧ w.capacity < 2 ^ 63)
    ?_ ⟨⟨pieces, h⟩, hw⟩ hcalls
  rintro w call ⟨⟨pieces, hholds⟩, hword⟩ hcall
  refine ⟨⟨⟨_, hholds.perform call⟩, by rw [capacity_perform]; exact hword⟩, ?_⟩
  cases call with
  | put p => exact put_eq hholds.within hword hcall
  | clear => rfl

/-- The answer and what is written do not depend on what the cells beyond the cursor hold. -/
theorem put_congr {w' : SendBuffer} (hcapacity : w.capacity = w'.capacity)
    (hwritten : w.written = w'.written) (p : Piece) :
    (p.put w).1 = (p.put w').1 ∧ (p.put w).2.written = (p.put w').2.written := by
  have hremaining : w.remaining = w'.remaining := by
    rw [remaining, remaining, ← length_written, ← length_written, hcapacity, hwritten]
  rcases Nat.lt_or_ge w.remaining p.encode.length with hshort | hfits
  · have hshort' := hremaining ▸ hshort
    rw [put_piece_of_lt hshort, put_piece_of_lt hshort', hremaining]
    exact ⟨rfl, hwritten⟩
  · have hfits' := hremaining ▸ hfits
    refine ⟨?_, ?_⟩
    · rw [put_piece_of_le hfits, put_piece_of_le hfits']
    · rw [written_put_piece hfits, written_put_piece hfits', hwritten]

/-- **A piece is written as a whole or not at all, after any run of calls.** Let a buffer be empty,
with any bytes in its cells, and let `out` be what some calls leave of it.

The cursor is not beyond the cells. Before it stand the encodings of just those pieces that were
written with success since the buffer was last cleared, in their order. The next piece is written if
and only if its encoding fits in the cells that remain. Then it stands behind the others, and the
cells beyond it are as they were. Otherwise the answer gives the length of its encoding and the
number of cells that remain, and nothing has changed. In either case, clearing the buffer and
writing the piece again gives what writing it at first would have given.

In memory, no check fails in the whole run, and the cells and the cursor are those of `out`. -/
theorem run_fills (hempty : w.isEmpty = true) (calls : List Call) :
    let answers := (Calls.run perform w calls).1
    let out := (Calls.run perform w calls).2
    out.capacity = w.capacity ∧ out.position ≤ out.capacity ∧
    out.written = ((calls.zip answers).foldl standing []).flatMap Piece.encode ∧
    out.written = out.cells.take out.position ∧
    (∀ p : Piece,
      ((p.put out).1 = .ok () ↔ p.encode.length ≤ out.remaining) ∧
      (p.encode.length ≤ out.remaining →
        (p.put out).2.written = out.written ++ p.encode ∧
        (p.put out).2.cells =
          out.written ++ p.encode ++ out.cells.drop (out.position + p.encode.length)) ∧
      (out.remaining < p.encode.length →
        p.put out = (.error (.full p.encode.length out.remaining), out)) ∧
      (p.put (p.put out).2.clear).1 = (p.put w).1 ∧
      (p.put (p.put out).2.clear).2.written = (p.put w).2.written) ∧
    (w.capacity < 2 ^ 63 → (∀ call ∈ calls, call.Addressable) →
      Calls.run? Memory.perform w.memory calls = some (answers, out.memory) ∧
      out.memory.written = some out.written) := by
  intro answers out
  have hstart := Holds.of_isEmpty hempty
  obtain ⟨hholds, hcapacity⟩ := run_holds hstart calls
  have hwithin : out.position ≤ out.capacity := hholds.within
  refine ⟨hcapacity, hwithin, hholds.written, (take_cells hwithin).symm, ?_, ?_⟩
  · intro p
    refine ⟨put_piece_eq_ok_iff, fun hfits => ⟨written_put_piece hfits, cells_put hfits hwithin⟩,
      fun hshort => put_piece_of_lt hshort, ?_⟩
    refine put_congr ?_ ?_ p
    · rw [capacity_clear, capacity_put_piece]
      exact hcapacity
    · rw [written_clear, hstart.written]
      rfl
  · intro hw hcalls
    exact ⟨Memory.run_eq hstart hw hcalls, Memory.written_eq hwithin⟩

/-- A bulk string that does not fit behind another reply. Three bytes of it would have. -/
theorem run_fills_pong :
    let w := ofCapacity 10
    let pong := Bytes.ascii "+PONG\r\n"
    let calls : List Call := [.put (.raw pong), .put (.bulk (Bytes.ascii "too long"))]
    let out := (Calls.run perform w calls).2
    w.isEmpty = true ∧ (Calls.run perform w calls).1 = [.ok (), .error (.full 14 3)] ∧
      out.written = pong ∧ out.cells = pong ++ [0, 0, 0] ∧
      (Piece.put out (.raw [1, 2, 3])).2.cells = pong ++ [1, 2, 3] ∧
      Calls.run? Memory.perform w.memory calls =
        some ([.ok (), .error (.full 14 3)], ⟨pong ++ [0, 0, 0], 7⟩) := by
  intro w pong calls out
  have hanswers : (Calls.run perform w calls).1 = [.ok (), .error (.full 14 3)] := by decide
  have hcells : out.cells = pong ++ [0, 0, 0] := by decide
  obtain ⟨-, -, hwritten, -, hnext, hmemory⟩ := run_fills (w := w) rfl calls
  obtain ⟨hrun, -⟩ := hmemory (by decide) (by decide)
  rw [hanswers] at hwritten hrun
  have hfits := (hnext (.raw [1, 2, 3])).2.1 (by decide)
  exact ⟨rfl, hanswers, hwritten, hcells, hfits.2, hrun⟩

end RespStore.SendBuffer
