import RespStore.Proofs.Session.Sending
import RespStore.Proofs.Wire.Value

/-!
# RespStore.Proofs.Session.Replies

No reply can pass for another. A client tells where one reply ends and the next begins from nothing
but the bytes, and these hold what other clients have sent: values come back as they were stored,
and refusals and complaints quote the words that they refuse. A payload is safe because its size is
announced, and a text because its line breaks are taken out.

`Reply.toValue` says what a client is to make of a reply, and `Reply.reads` that it does, whatever
follows. So any number of replies, and a complaint behind them, are told apart again
(`readAll_repliesBytes`).
-/

namespace RespStore

/-! ### The value of a reply -/

namespace Canned

/-- What a client reads in the reply. -/
def toValue : Canned → Value
  | .ok => .success (Bytes.ascii "OK")
  | .pong => .success (Bytes.ascii "PONG")
  | .missing => .absent
  | .noSnapshots => .array [.bulk (Bytes.ascii "save"), .bulk (Bytes.ascii "")]
  | .noLog => .array [.bulk (Bytes.ascii "appendonly"), .bulk (Bytes.ascii "no")]
  | .commands => .array <| Command.all.map fun command =>
      .array [.bulk (Bytes.ascii command.name), .integer command.arity]

theorem reads_word (text : String) : Value.Reads (word text) (.bulk (Bytes.ascii text)) :=
  Value.reads_bulk _

theorem reads (reply : Canned) : Value.Reads reply.bytes reply.toValue := by
  cases reply with
  | ok => exact Value.reads_success (Bytes.ascii "OK")
  | pong => exact Value.reads_success (Bytes.ascii "PONG")
  | missing => exact Value.reads_absent
  | noSnapshots => exact Value.reads_array (.cons (reads_word _) (.cons (reads_word _) .nil))
  | noLog => exact Value.reads_array (.cons (reads_word _) (.cons (reads_word _) .nil))
  | commands =>
    refine Value.reads_array (List.forall₂_map_left_iff.2 (List.forall₂_map_right_iff.2 ?_))
    refine List.forall₂_same.2 fun command _ => ?_
    exact Value.reads_array (.cons (reads_word _) (.cons (Value.reads_integer _) .nil))

theorem toValue_ne_integer (reply : Canned) (n : Int) : reply.toValue ≠ .integer n := by
  cases reply <;> exact Value.noConfusion

end Canned

namespace Reply

/-- What a client reads in the reply. -/
def toValue : Reply → Value
  | .canned reply => reply.toValue
  | .value payload => .bulk payload
  | .refusal cause => .error ((Utf8.encode cause.message).map Encoding.unbroken)

theorem reads (r : Reply) : Value.Reads r.encode r.toValue := by
  cases r with
  | canned reply => exact reply.reads
  | value payload => exact Value.reads_bulk payload
  | refusal cause => exact Value.reads_error _

theorem isError_iff {r : Reply} : r.isError = true ↔ ∃ cause, r = .refusal cause := by
  cases r <;> simp [isError]

/-- An integer stands in a reply as the item of an array only. -/
theorem toValue_ne_integer (r : Reply) (n : Int) : r.toValue ≠ .integer n := by
  cases r with
  | canned reply => exact reply.toValue_ne_integer n
  | value payload => exact Value.noConfusion
  | refusal cause => exact Value.noConfusion

end Reply

namespace Session

open Command

/-- The line that ends a session over malformed bytes, as the client reads it. -/
def complaintValue (error : Wire.ParseError) : Value :=
  .error ((complaint error).map Encoding.unbroken)

theorem reads_complaint (error : Wire.ParseError) :
    Value.Reads (Encoding.line Encoding.errorMark (complaint error)) (complaintValue error) :=
  Value.reads_error _

/-- The text of an error line ends where the line does. -/
theorem exists_text_of_error (text : Bytes) :
    ∃ shown, Value.error (text.map Encoding.unbroken) = .error shown ∧
      Encoding.line Encoding.errorMark text = Encoding.errorMark :: shown ++ Bytes.crlf ∧
      Bytes.cr ∉ shown ∧ Bytes.lf ∉ shown :=
  ⟨_, rfl, rfl, (Bytes.unbroken_map_unbroken text).notMem⟩

theorem forall₂_reads (replies : List Reply) :
    List.Forall₂ Value.Reads (replies.map Reply.encode) (replies.map Reply.toValue) :=
  List.forall₂_map_left_iff.2 <| List.forall₂_map_right_iff.2 <|
    List.forall₂_same.2 fun r _ => r.reads

theorem length_executeAll (requests : List (List Bytes)) (store : Store) :
    (executeAll requests store).1.length = requests.length := by
  induction requests generalizing store with
  | nil => rfl
  | cons request rest ih => exact congrArg (· + 1) (ih (Command.execute request store).2)

/-- A name that would end its line and begin another reply. -/
example :
    (Command.execute [Bytes.ascii "X\r\n+OK"] (Store.create 1)).1.encode =
      Bytes.ascii "-ERR unknown command 'X  +OK'\r\n" := by
  decide +kernel

end Session
end RespStore
