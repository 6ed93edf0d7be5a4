import RespStore.Wire.Encoding

/-!
# RespStore.Wire.SendBuffer

A buffer of fixed size that replies are written into before they are sent. A cursor separates the
bytes written since the buffer was last cleared from those beyond, which still hold whatever was
there before.

A reply is written whole or not at all. One that does not fit leaves the buffer as it is, so the
same reply can be written again once the buffer has been sent and cleared.
-/

namespace RespStore

/-- Why a reply was not written. -/
inductive WriteError
  /-- It takes more bytes than remain. -/
  | full (needed remaining : Nat)
  deriving Repr, DecidableEq

/-- The wording of an error. -/
def WriteError.message : WriteError → String
  | .full needed remaining => s!"send buffer full: need {needed} bytes, {remaining} remaining"

/-- A send buffer. -/
structure SendBuffer where
  /-- The size of the buffer. -/
  capacity : Nat
  /-- The bytes before the cursor. -/
  front : Array UInt8
  /-- The bytes from the cursor on, as far as anything was ever written there. -/
  beyond : Bytes
  deriving Repr, DecidableEq

namespace SendBuffer

/-- A buffer into which nothing has been written. -/
def ofCapacity (capacity : Nat) : SendBuffer := ⟨capacity, #[], []⟩

/-- The bytes written since the buffer was last cleared. -/
def written (w : SendBuffer) : Bytes := w.front.toList

/-- The cursor. -/
def position (w : SendBuffer) : Nat := w.front.size

/-- The number of bytes that can still be written. -/
def remaining (w : SendBuffer) : Nat := w.capacity - w.position

/-- Nothing has been written since the buffer was last cleared. -/
def isEmpty (w : SendBuffer) : Bool := w.position == 0

/-- The cell of the buffer at an index; cells that nothing was ever written to hold zero. -/
def cell (w : SendBuffer) (index : Nat) : UInt8 := (w.written ++ w.beyond).getD index 0

/-- All the cells of the buffer, those beyond the cursor too. -/
def cells (w : SendBuffer) : Bytes :=
  let touched := w.written ++ w.beyond
  (touched ++ List.replicate (w.capacity - touched.length) 0).take w.capacity

/-- Takes the cursor back to the start. -/
def clear (w : SendBuffer) : SendBuffer := { w with front := #[], beyond := w.written ++ w.beyond }

/-- Writes the encoding `bytes`, announced to take `size` bytes. -/
def put (w : SendBuffer) (size : Nat) (bytes : Bytes) : Except WriteError Unit × SendBuffer :=
  if size ≤ w.remaining then
    (.ok (), { w with front := w.front ++ bytes, beyond := w.beyond.drop size })
  else
    (.error (.full size w.remaining), w)

/-- Writes bytes that are a reply as they are. -/
def putRaw (w : SendBuffer) (bytes : Bytes) : Except WriteError Unit × SendBuffer :=
  w.put bytes.length bytes

/-- Writes a bulk string. -/
def putBulk (w : SendBuffer) (payload : Bytes) : Except WriteError Unit × SendBuffer :=
  w.put (Encoding.bulkSize payload.length) (Encoding.bulk payload)

/-- Writes a line. -/
def putLine (w : SendBuffer) (mark : UInt8) (text : Bytes) :
    Except WriteError Unit × SendBuffer :=
  w.put (Encoding.lineSize text.length) (Encoding.line mark text)

/-- Writes a line that reports a success. -/
def putSuccess (w : SendBuffer) (text : Bytes) : Except WriteError Unit × SendBuffer :=
  w.putLine Encoding.successMark text

/-- Writes a line that reports an error. -/
def putError (w : SendBuffer) (text : Bytes) : Except WriteError Unit × SendBuffer :=
  w.putLine Encoding.errorMark text

/-! ### The view -/

@[simp] theorem length_written (w : SendBuffer) : w.written.length = w.position := rfl

@[simp] theorem written_ofCapacity (capacity : Nat) : (ofCapacity capacity).written = [] := rfl

@[simp] theorem written_clear (w : SendBuffer) : w.clear.written = [] := rfl

@[simp] theorem capacity_clear (w : SendBuffer) : w.clear.capacity = w.capacity := rfl

@[simp] theorem length_cells (w : SendBuffer) : w.cells.length = w.capacity := by
  simp only [cells, List.length_take, List.length_append, List.length_replicate]
  omega

theorem getElem_cells {w : SendBuffer} {index : Nat} (h : index < w.cells.length) :
    w.cells[index] = w.cell index := by
  simp only [cells, cell, List.getElem_take]
  rcases Nat.lt_or_ge index (w.written ++ w.beyond).length with hlt | hge
  · rw [List.getElem_append_left hlt, List.getD_eq_getElem?_getD, List.getElem?_eq_getElem hlt,
      Option.getD_some]
  · rw [List.getElem_append_right hge, List.getElem_replicate, List.getD_eq_getElem?_getD,
      List.getElem?_eq_none hge, Option.getD_none]

@[simp] theorem cell_clear (w : SendBuffer) (index : Nat) : w.clear.cell index = w.cell index := rfl

theorem put_of_le {w : SendBuffer} {size : Nat} (h : size ≤ w.remaining) (bytes : Bytes) :
    w.put size bytes =
      (.ok (), { w with front := w.front ++ bytes, beyond := w.beyond.drop size }) :=
  if_pos h

theorem put_of_lt {w : SendBuffer} {size : Nat} (h : w.remaining < size) (bytes : Bytes) :
    w.put size bytes = (.error (.full size w.remaining), w) :=
  if_neg (Nat.not_le.2 h)

theorem written_put {w : SendBuffer} {size : Nat} (h : size ≤ w.remaining) (bytes : Bytes) :
    (w.put size bytes).2.written = w.written ++ bytes := by
  simp [put_of_le h, written]

end SendBuffer
end RespStore
