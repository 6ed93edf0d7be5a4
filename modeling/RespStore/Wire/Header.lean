import RespStore.Decimal
import RespStore.Text.Utf8
import RespStore.Wire.Error

/-!
# RespStore.Wire.Header

The line that opens a frame: a byte that gives the kind of the frame, a numeral, and the end of
the line. The numeral is the length of a payload or the number of elements.

Bytes arrive in pieces, so looking at them has three outcomes (`Scan`): what was looked for is
there, more bytes are needed, or no further bytes can help. A header that has not ended is
waited for as long as it is short enough to hold the largest number.
-/

namespace RespStore.Wire

/-- The outcome of looking for something at the start of the bytes received so far. -/
inductive Scan (ε α : Type)
  /-- It is there, and takes `used` bytes. -/
  | found (value : α) (used : Nat)
  /-- The bytes so far are the beginning of it. -/
  | incomplete
  /-- The bytes are the beginning of nothing. -/
  | failed (error : ε)
  deriving Repr, DecidableEq

/-- The most bytes of a header that is waited for: its kind, twenty digits, and the first byte of
the line's end. -/
def maxOpenHeader : Nat := 22

/-- Reads the header at the start of `bs`, whose first byte gives the kind of the frame. -/
def header (bs : Bytes) : Scan FrameError Nat :=
  match Bytes.crlfAt? bs.tail with
  | none =>
    if !bs.hasFewer (maxOpenHeader + 1) then .failed (.badLength "length header is not terminated")
    else .incomplete
  | some stop =>
    let digits := bs.tail.take stop
    if digits.isEmpty then .failed (.badLength "empty")
    else
      match Decimal.decode? digits with
      | some value => .found value (1 + digits.length + Bytes.crlf.length)
      | none => .failed (.badLength (Utf8.lossy digits))

theorem header_used_pos {bs : Bytes} {value used : Nat} (h : header bs = .found value used) :
    0 < used := by
  unfold header at h
  split at h
  · split at h <;> cases h
  · dsimp only at h
    split at h
    · cases h
    · split at h
      · cases h; omega
      · cases h

end RespStore.Wire
