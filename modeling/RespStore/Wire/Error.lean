import RespStore.Arena
import RespStore.Bytes

/-!
# RespStore.Wire.Error

What can be wrong with the bytes of a request. `FrameError` is about the bytes alone;
`ParseError` adds the case that the bytes are fine and the arena has no room for the request.
-/

namespace RespStore.Wire

/-- Why bytes are not the beginning of any request. -/
inductive FrameError
  /-- The first byte begins no kind of frame. -/
  | unknownType (byte : UInt8)
  /-- An element of an array is no bulk string. -/
  | notBulk (byte : UInt8)
  /-- A header holds no number that fits a word. -/
  | badLength (text : String)
  /-- An array without elements. -/
  | emptyArray
  /-- A payload is not followed by the end of a line. -/
  | unendedPayload
  /-- Letters that are not the inline ping. -/
  | unknownInline
  /-- A payload longer than allowed. -/
  | longPayload (size max : Nat)
  /-- More elements than allowed. -/
  | manyElements (count max : Nat)
  /-- A declared length so large that the position of the payload's end is no word any more and
  comes out before the position of its start. Only limits close to the size of a word let such a
  length through. -/
  | crossedBounds (start stop : Nat)
  deriving Repr, DecidableEq

/-- A byte as a hexadecimal number of two digits. -/
def hexByte (b : UInt8) : String :=
  let digits := Nat.toDigits 16 b.toNat
  String.ofList (['0', 'x'] ++ List.replicate (2 - digits.length) '0' ++ digits)

/-- The wording of an error. -/
def FrameError.message : FrameError → String
  | .unknownType byte => "unknown type prefix: " ++ hexByte byte
  | .notBulk byte => "expected bulk string, got " ++ hexByte byte
  | .badLength text => "invalid length: " ++ text
  | .emptyArray => "empty command"
  | .unendedPayload => "bulk string missing trailing CRLF"
  | .unknownInline => "unsupported inline command"
  | .longPayload size max => s!"bulk string too large: {size} bytes (max: {max})"
  | .manyElements count max => s!"too many arguments: {count} (max: {max})"
  | .crossedBounds start stop => s!"slice index starts at {start} but ends at {stop}"

/-- The error is none that a reader reports. The bounds of a slice are found to cross where the
slice is taken, and the reader stops dead there. -/
def FrameError.isCrash : FrameError → Bool
  | .crossedBounds .. => true
  | _ => false

/-- Why a request could not be taken in. -/
inductive ParseError
  /-- Its bytes are malformed. -/
  | frame (error : FrameError)
  /-- The arena has no room for it. -/
  | arena (error : ArenaError)
  deriving Repr, DecidableEq

/-- The wording of an error. -/
def ParseError.message : ParseError → String
  | .frame error => error.message
  | .arena error => error.message

/-- The error is none that a reader reports. -/
def ParseError.isCrash : ParseError → Bool
  | .frame error => error.isCrash
  | .arena _ => false

end RespStore.Wire
