import RespStore.Wire.Encoding
import RespStore.Wire.Header

/-!
# RespStore.Wire.Frame

The frames that requests are made of. A bulk string is a header with the length of its payload,
the payload, and the end of a line, so the payload may hold any bytes. An array is a header with
the number of its elements and that many bulk strings. The inline ping is a word on a line of
its own.

`elementsEnd` looks through the elements of an array without keeping them, so that an array whose
elements have not all arrived costs nothing but the look.
-/

namespace RespStore.Wire

/-- The most that one request may ask for. -/
structure Limits where
  /-- The longest payload. -/
  maxBulk : Nat
  /-- The most elements of an array. -/
  maxArgs : Nat
  deriving Repr, DecidableEq

namespace Limits

/-- Payloads up to 512 MiB and a million elements. -/
def standard : Limits := ⟨512 * 1024 * 1024, 1024 * 1024⟩

/-- The fewest bytes that an element of an array takes. -/
def minElement : Nat := 6

/-- The limits for requests that have to fit a buffer of `size` bytes: no array may declare more
elements than the buffer could hold. -/
def ofBuffer (size : Nat) : Limits :=
  { standard with maxArgs := max 1 (min standard.maxArgs (size / minElement)) }

end Limits

/-! ### Bulk strings -/

/-- Reads the bulk string at the start of `bs`, whose first byte is its mark. The positions of
the payload's end and of the frame's end are 64-bit words, so a declared length close to the size
of a word comes round to a position near the start. -/
def bulk (limits : Limits) (bs : Bytes) : Scan FrameError Bytes :=
  match header bs with
  | .incomplete => .incomplete
  | .failed error => .failed error
  | .found length start =>
    if limits.maxBulk < length then .failed (.longPayload length limits.maxBulk)
    else
      let stop := Word.wrap (start + length)
      let next := Word.wrap (stop + Bytes.crlf.length)
      if bs.hasFewer next then .incomplete
      else if next < stop then .failed (.crossedBounds stop next)
      else if bs.slice stop next ≠ Bytes.crlf then .failed .unendedPayload
      else if stop < start then .failed (.crossedBounds start stop)
      else .found (bs.slice start stop) next

theorem bulk_used {limits : Limits} {bs arg : Bytes} {used : Nat}
    (h : bulk limits bs = .found arg used) : 0 < used ∧ used ≤ bs.length := by
  unfold bulk at h
  split at h
  · cases h
  · cases h
  · next length start hd =>
    have := header_used_pos hd
    dsimp only at h
    repeat' split at h
    all_goals cases h
    next hlen _ _ _ =>
      have := Bytes.le_length_of_hasFewer hlen
      omega

/-- Looks through `count` bulk strings at the start of `bs`, which is what stands from `position`
on, and finds the position after them. -/
def elementsEnd (limits : Limits) : (count : Nat) → (bs : Bytes) → (position : Nat) →
    Scan FrameError Unit
  | 0, _, position => .found () position
  | _ + 1, [], _ => .incomplete
  | count + 1, b :: bs, position =>
    if b ≠ Encoding.bulkMark then .failed (.notBulk b)
    else
      match bulk limits (b :: bs) with
      | .found _ used => elementsEnd limits count ((b :: bs).drop used) (position + used)
      | .incomplete => .incomplete
      | .failed error => .failed error

/-! ### The inline ping -/

/-- The one request that may be made without a header. -/
def inlinePing : Bytes := Bytes.ascii "PING\r\n"

/-- Reads the inline ping, in any case of letters, at the start of `bs`. -/
def inline (bs : Bytes) : Scan FrameError Bytes :=
  match bs with
  | [] => .incomplete
  | b :: _ =>
    let seen := bs.take inlinePing.length
    if !Bytes.sameWord seen (inlinePing.take seen.length) then
      .failed (if Bytes.isLetter b then .unknownInline else .unknownType b)
    else if seen.length < inlinePing.length then .incomplete
    else .found (bs.take 4) inlinePing.length

end RespStore.Wire
