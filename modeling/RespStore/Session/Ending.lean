import RespStore.Wire.Error
import RespStore.Wire.SendBuffer

/-!
# RespStore.Session.Ending

Why a session ends. Every session ends for some reason; the reasons that are no failures are
`isClean`.
-/

namespace RespStore

/-- The kinds of failures of a stream. -/
inductive IoKind
  | connectionReset
  | connectionAborted
  | brokenPipe
  | timedOut
  | unexpectedEof
  | writeZero
  | other
  deriving Repr, DecidableEq

/-- A failure of a stream. -/
structure IoError where
  kind : IoKind
  text : String
  deriving Repr, DecidableEq

/-- The failure of a write that takes no bytes. -/
def IoError.writeZero : IoError := ⟨.writeZero, "write zero"⟩

/-- The reasons for the end of a session. -/
inductive Ending
  /-- The stream failed. -/
  | stream (error : IoError)
  /-- The client sent something that is no request. -/
  | malformed (error : Wire.ParseError)
  /-- There is no memory for the session. -/
  | memory (error : ArenaError)
  /-- A reply could not be written. -/
  | unwritable (error : WriteError)
  /-- The client left between two requests. -/
  | left
  /-- The client left inside a request. -/
  | cutOff
  /-- A request does not fit the receive buffer. -/
  | oversized (size : Nat)
  /-- The server is going down. -/
  | shutdown
  deriving Repr, DecidableEq

namespace Ending

/-- The session ended as sessions should: the client left or reset the connection, or the server
went down. -/
def isClean : Ending → Bool
  | .left => true
  | .shutdown => true
  | .stream error => error.kind == .connectionReset
  | _ => false

/-- The wording of a reason. -/
def message : Ending → String
  | .stream error => "I/O error: " ++ error.text
  | .malformed error => "protocol error: " ++ error.message
  | .memory error => "arena error: " ++ error.message
  | .unwritable error => "write error: " ++ error.message
  | .left => "client disconnected"
  | .cutOff => "unexpected end of stream"
  | .oversized size => s!"request exceeds the {size} byte receive buffer"
  | .shutdown => "server shutting down"

end Ending
end RespStore
