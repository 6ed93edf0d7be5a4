import RespStore.Command.Basic
import RespStore.Table.Basic
import RespStore.Wire.SendBuffer

/-!
# RespStore.Command.Reply

What a command is answered with: one of a few fixed replies, the value of a key, or an error. A
command that is wrong is answered with an error and changes nothing else about its connection.

`Reply.size` tells how many bytes a reply takes before it is written, so that one which is larger
than a whole send buffer can be recognised.
-/

namespace RespStore

/-- Why a command was refused. Words that a client sent are kept as text. -/
inductive Refusal
  /-- A request without arguments. -/
  | empty
  /-- A name that is no command's. -/
  | unknown (name : String)
  /-- The named command with too few or too many arguments. -/
  | arity (name : String)
  /-- A subcommand that the configuration command does not have. -/
  | subcommand (word : String)
  /-- A parameter that has no value. -/
  | parameter (word : String)
  /-- The store refused to write. -/
  | store (error : StoreError)
  deriving Repr, DecidableEq

/-- The wording of an error, as clients see it. -/
def Refusal.message : Refusal → String
  | .empty => "ERR empty command"
  | .unknown name => "ERR unknown command '" ++ name ++ "'"
  | .arity name => "ERR wrong number of arguments for '" ++ name ++ "' command"
  | .subcommand word => "ERR unknown CONFIG subcommand '" ++ word ++ "'"
  | .parameter word => "ERR unsupported CONFIG parameter '" ++ word ++ "'"
  | .store error => "ERR " ++ error.message

/-- A reply that does not depend on the store. -/
inductive Canned
  /-- A write was done. -/
  | ok
  /-- The answer to a ping. -/
  | pong
  /-- A key has no value. -/
  | missing
  /-- There are no snapshots. -/
  | noSnapshots
  /-- There is no log of writes. -/
  | noLog
  /-- The commands there are, each with the number of its arguments. -/
  | commands
  deriving Repr, DecidableEq

/-- A word as a bulk string. -/
def Canned.word (text : String) : Bytes := Encoding.bulk (Bytes.ascii text)

/-- The reply on the wire. -/
def Canned.bytes : Canned → Bytes
  | .ok => Encoding.line Encoding.successMark (Bytes.ascii "OK")
  | .pong => Encoding.line Encoding.successMark (Bytes.ascii "PONG")
  | .missing => Encoding.absent
  | .noSnapshots => Encoding.array [word "save", word ""]
  | .noLog => Encoding.array [word "appendonly", word "no"]
  | .commands => Encoding.array <| Command.all.map fun command =>
      Encoding.array [word command.name, Encoding.integer command.arity]

/-- The answer to a command. -/
inductive Reply
  | canned (reply : Canned)
  /-- The value of a key. -/
  | value (payload : Bytes)
  /-- The command was refused. -/
  | refusal (cause : Refusal)
  deriving Repr, DecidableEq

namespace Reply

/-- The reply is a refusal. -/
def isError : Reply → Bool
  | .refusal _ => true
  | _ => false

/-- The reply on the wire. -/
def encode : Reply → Bytes
  | .canned reply => reply.bytes
  | .value payload => Encoding.bulk payload
  | .refusal cause => Encoding.line Encoding.errorMark (Utf8.encode cause.message)

/-- The number of bytes of the reply on the wire. -/
def size : Reply → Nat
  | .canned reply => reply.bytes.length
  | .value payload => Encoding.bulkSize payload.length
  | .refusal cause => Encoding.lineSize (Utf8.encode cause.message).length

theorem length_encode (r : Reply) : r.encode.length = r.size := by
  cases r with
  | canned => rfl
  | value => exact Encoding.length_bulk _
  | refusal => exact Encoding.length_line _ _

/-- Writes the reply into a send buffer. -/
def write (r : Reply) (w : SendBuffer) : Except WriteError Unit × SendBuffer :=
  match r with
  | .canned reply => w.putRaw reply.bytes
  | .value payload => w.putBulk payload
  | .refusal cause => w.putError (Utf8.encode cause.message)

theorem write_eq_put (r : Reply) (w : SendBuffer) : r.write w = w.put r.size r.encode := by
  cases r <;> rfl

end Reply
end RespStore
