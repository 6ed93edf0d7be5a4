import RespStore.Command.Execute
import RespStore.Session.Outlet
import RespStore.Wire.Batch

/-!
# RespStore.Session.Basic

A session with one client: the bytes received and not yet answered, the store, and the stream
that replies go to.

Whatever has been received is answered at once as far as it goes. `answer` takes in the complete
requests at the start of the receive buffer, executes them in order, and sends their replies; it
does so again until no complete request is left. Replies gather in the send buffer, which is sent
whenever the next one does not fit and when the requests are all executed. A reply larger than
the whole send buffer is sent by itself.

Every step returns the session as the step left it, also where the step ends the session.
-/

namespace RespStore

/-- Counts over all sessions. -/
structure Traffic where
  /-- The sessions so far. -/
  accepted : Nat
  /-- The sessions that have not ended. -/
  active : Nat
  /-- The requests in batches that were answered in full. -/
  commands : Nat
  bytesRead : Nat
  /-- The bytes of replies that were sent and flushed. -/
  bytesWritten : Nat
  deriving Repr, DecidableEq

namespace Traffic

/-- No session so far. -/
def none : Traffic := ⟨0, 0, 0, 0, 0⟩

/-- A session begins. -/
def opened (t : Traffic) : Traffic :=
  { t with accepted := t.accepted + 1, active := t.active + 1 }

/-- A session ends. -/
def closed (t : Traffic) : Traffic := { t with active := t.active - 1 }

end Traffic

/-- What a session shows to the outside. -/
inductive Event
  /-- A read gave so many bytes. -/
  | received (count : Nat)
  /-- These bytes reached the client. -/
  | sent (bytes : Bytes)
  deriving Repr, DecidableEq

/-- A session with one client. -/
structure Session where
  /-- The size of the receive buffer, and of the send buffer. -/
  bufferSize : Nat
  /-- The arena that pays for requests. -/
  arena : Arena
  /-- The bytes received and not yet answered. -/
  buffered : Bytes
  outlet : Outlet
  store : Store
  traffic : Traffic
  /-- The events so far, in order. -/
  events : Array Event

namespace Session

/-! ### Sending -/

/-- Sends bytes to the client. They count as written once they are flushed. -/
def send (s : Session) (bytes : Bytes) : Except Ending Unit × Session :=
  match s.outlet.writeAll bytes with
  | (.error cause, outlet) => (.error cause, { s with outlet })
  | (.ok (), outlet) =>
    match outlet.flush with
    | (.error cause, outlet) => (.error cause, { s with outlet })
    | (.ok sent, outlet) =>
      let traffic := { s.traffic with bytesWritten := s.traffic.bytesWritten + bytes.length }
      (.ok (), { s with outlet, traffic, events := s.events.push (.sent sent) })

/-- Sends what the send buffer holds, if it holds anything, and clears it. -/
def sendWritten (s : Session) (w : SendBuffer) : Except Ending SendBuffer × Session :=
  if w.isEmpty then (.ok w, s)
  else
    match s.send w.written with
    | (.ok (), s) => (.ok w.clear, s)
    | (.error cause, s) => (.error cause, s)

/-- Sends a reply by itself, in a buffer of its own size. -/
def sendAlone (s : Session) (r : Reply) : Except Ending Unit × Session :=
  match r.write (SendBuffer.ofCapacity r.size) with
  | (.ok (), large) => s.send large.cells
  | (.error error, _) => (.error (.unwritable error), s)

/-- Puts a reply into the send buffer, or where it does not fit sends what stands before it. -/
def reply (s : Session) (w : SendBuffer) (r : Reply) : Except Ending SendBuffer × Session :=
  match r.write w with
  | (.ok (), w) => (.ok w, s)
  | (.error _, w) =>
    match s.sendWritten w with
    | (.error cause, s) => (.error cause, s)
    | (.ok w, s) =>
      -- the buffer is empty now, so a reply that still does not fit never will
      if w.capacity < r.size then
        match s.sendAlone r with
        | (.ok (), s) => (.ok w, s)
        | (.error cause, s) => (.error cause, s)
      else
        match r.write w with
        | (.ok (), w) => (.ok w, s)
        | (.error error, _) => (.error (.unwritable error), s)

/-! ### Answering -/

/-- Executes requests in order and puts their replies into the send buffer. -/
def execute (s : Session) (w : SendBuffer) : List Request →
    Except Ending SendBuffer × Session
  | [] => (.ok w, s)
  | request :: rest =>
    let (r, store) := Command.execute request.toList s.store
    match { s with store }.reply w r with
    | (.ok w, s) => s.execute w rest
    | (.error cause, s) => (.error cause, s)

/-- Answers a batch. Its requests count once all their replies are sent. -/
def answerBatch (s : Session) (b : Batch) : Except Ending Unit × Session :=
  match s.execute (SendBuffer.ofCapacity s.bufferSize) b.toList with
  | (.error cause, s) => (.error cause, s)
  | (.ok w, s) =>
    match s.sendWritten w with
    | (.error cause, s) => (.error cause, s)
    | (.ok _, s) =>
      let traffic := { s.traffic with commands := s.traffic.commands + b.used }
      (.ok (), { s with traffic })

/-- The line that tells a client what is wrong with its bytes. -/
def complaint (error : Wire.ParseError) : Bytes :=
  Utf8.encode ("ERR Protocol error: " ++ error.message)

/-- Ends the session over malformed bytes, after telling the client if the send buffer has room
for the line. -/
def reject (s : Session) (error : Wire.ParseError) : Ending × Session :=
  match (SendBuffer.ofCapacity s.bufferSize).putError (complaint error) with
  | (.error _, _) => (.malformed error, s)
  | (.ok (), w) =>
    match s.send w.written with
    | (.ok (), s) => (.malformed error, s)
    | (.error cause, s) => (cause, s)

/-- Answers what was read from the receive buffer, and tells how many bytes that was. -/
def respond (s : Session) : Except Wire.ParseError (Option Batch.Read) →
    Except Ending Nat × Session
  | .ok none => (.ok 0, s)
  | .ok (some r) =>
    match s.answerBatch r.batch with
    | (.ok (), s) => (.ok r.consumed, s)
    | (.error cause, s) => (.error cause, s)
  | .error error =>
    let (cause, s) := s.reject error
    (.error cause, s)

/-- Answers every complete request in the receive buffer. -/
def answer (s : Session) : Except Ending Unit × Session :=
  let buffered := s.buffered
  if _h : buffered.isEmpty then (.ok (), s)
  else
    let (read, arena) := Batch.read (Wire.Limits.ofBuffer s.bufferSize) s.arena.reset buffered
    match { s with arena }.respond read with
    | (.error cause, s) => (.error cause, s)
    -- what is left is the beginning of a request
    | (.ok 0, s) => (.ok (), s)
    | (.ok (consumed + 1), next) =>
      { next with buffered := buffered.drop (consumed + 1) }.answer
termination_by s.buffered.length
decreasing_by
  have : s.buffered ≠ [] := by simpa [buffered] using _h
  have := List.length_pos_iff.2 this
  simp only [List.length_drop]
  omega

/-! ### Receiving -/

/-- The receive buffer has no room left. -/
def isFull (s : Session) : Bool := s.buffered.length == s.bufferSize

/-- Takes in bytes that a read gave, and answers what they complete. -/
def receive (s : Session) (bytes : Bytes) : Except Ending Unit × Session :=
  let traffic := { s.traffic with bytesRead := s.traffic.bytesRead + bytes.length }
  let events := s.events.push (.received bytes.length)
  { s with traffic, events, buffered := s.buffered ++ bytes }.answer

/-- Takes in bytes by as many reads as the room of the receive buffer makes necessary. -/
def feed (s : Session) (bytes : Bytes) : Except Ending Unit × Session :=
  if bytes.isEmpty then (.ok (), s)
  else
    let room := s.bufferSize - s.buffered.length
    if room = 0 then (.error (.oversized s.bufferSize), s)
    else
      match s.receive (bytes.take room) with
      | (.ok (), s) => s.feed (bytes.drop room)
      | (.error cause, s) => (.error cause, s)
termination_by bytes.length
decreasing_by
  have : bytes ≠ [] := by simpa using ‹¬bytes.isEmpty = true›
  have := List.length_pos_iff.2 this
  simp only [List.length_drop]
  omega

/-- Ends the session where the stream ends. -/
def finish (s : Session) : Ending × Session :=
  (if s.buffered.isEmpty then .left else .cutOff,
    { s with events := s.events.push (.received 0) })

end Session
end RespStore
