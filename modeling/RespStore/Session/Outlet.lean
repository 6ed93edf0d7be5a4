import RespStore.Session.Ending

/-!
# RespStore.Session.Outlet

The writing side of a stream. A stream need not take all the bytes it is offered, so writing goes
on until everything is taken, and what was taken reaches the client when the stream is flushed.

An outlet also says how its stream will behave: what comes of each attempt to write, and of each
attempt to flush, in order. Attempts are used up as the outlet is used, so an outlet at any moment
is again an outlet.
-/

namespace RespStore

/-- What comes of an attempt to use a stream. -/
inductive Attempt (α : Type)
  /-- The stream is ready. -/
  | ready (answer : α)
  /-- The stream is not ready yet, so there will be another attempt. -/
  | pending
  /-- The stream fails. -/
  | fail (error : IoError)
  /-- The server goes down before the stream is ready. -/
  | shutdown
  deriving Repr, DecidableEq

/-- The writing side of a stream. After the attempts that are listed, every attempt succeeds, and a
write takes everything. -/
structure Outlet where
  /-- What comes of the next attempts to write. A stream that is ready has room for so many bytes,
  and what a write leaves of the room is there for the next; one without room takes no bytes. -/
  writes : List (Attempt Nat)
  /-- What comes of the next attempts to flush. -/
  flushes : List (Attempt Unit)
  /-- The bytes that were taken since the last flush. -/
  unflushed : Bytes
  deriving Repr, DecidableEq

namespace Outlet

/-- A stream that takes everything. -/
def steady : Outlet := ⟨[], [], []⟩

/-- The outlet after it has taken bytes, and how its stream behaves from there on. -/
def accept (o : Outlet) (bytes : Bytes) (writes : List (Attempt Nat)) : Outlet :=
  { o with writes, unflushed := o.unflushed ++ bytes }

/-- Writes all the bytes, as many at a time as there is room for. -/
def writeAll (o : Outlet) (bytes : Bytes) : Except Ending Unit × Outlet :=
  if bytes.isEmpty then (.ok (), o)
  else
    match _h : o.writes with
    | [] => (.ok (), o.accept bytes [])
    | .pending :: rest => writeAll { o with writes := rest } bytes
    | .fail error :: _ => (.error (.stream error), o)
    | .shutdown :: _ => (.error .shutdown, o)
    | .ready room :: rest =>
      if room = 0 then (.error (.stream IoError.writeZero), o)
      else if bytes.length < room then
        (.ok (), o.accept bytes (.ready (room - bytes.length) :: rest))
      else writeAll (o.accept (bytes.take room) rest) (bytes.drop room)
termination_by o.writes.length
decreasing_by all_goals simp [_h, accept]

/-- Flushes the stream and tells what reached the client. -/
def flush (o : Outlet) : Except Ending Bytes × Outlet :=
  match _h : o.flushes with
  | [] => (.ok o.unflushed, { o with unflushed := [] })
  | .pending :: rest => flush { o with flushes := rest }
  | .fail error :: _ => (.error (.stream error), o)
  | .shutdown :: _ => (.error .shutdown, o)
  | .ready () :: rest => (.ok o.unflushed, { o with flushes := rest, unflushed := [] })
termination_by o.flushes.length
decreasing_by simp [_h]

end Outlet
end RespStore
