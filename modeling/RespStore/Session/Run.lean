import RespStore.Session.Basic

/-!
# RespStore.Session.Run

A session from its beginning to its end. What the client and the stream do is a script: the
arrivals on the reading side, and an outlet for the writing side. Running a script leaves a
transcript, with the reason for the end, what the session showed, and the store and the counts
for the next session.
-/

namespace RespStore

/-- What happens next on the reading side of a stream. -/
inductive Arrival
  /-- Bytes arrive. An arrival without bytes is the end of the stream. -/
  | data (bytes : Bytes)
  /-- The stream is not ready at first. -/
  | pending
  /-- The stream fails. -/
  | fail (error : IoError)
  /-- The stream never becomes ready, and the server goes down meanwhile. -/
  | shutdown
  deriving Repr, DecidableEq

/-- How a client and its stream behave. The stream ends after the last arrival. -/
structure Script where
  arrivals : List Arrival
  outlet : Outlet
  /-- The server is going down already when the session begins. -/
  shutDown : Bool
  deriving Repr, DecidableEq

/-- The memory of a session. -/
structure Sizes where
  /-- The size of the receive buffer, and of the send buffer. -/
  buffer : Nat
  /-- The capacity that the arena for requests begins with. -/
  arena : Nat
  deriving Repr, DecidableEq

/-- One mebibyte for each. -/
def Sizes.standard : Sizes := ⟨1024 * 1024, 1024 * 1024⟩

/-- What a session leaves behind. -/
structure Transcript where
  /-- The reason for the end. -/
  cause : Ending
  events : List Event
  /-- The bytes that the stream took and that were never flushed. -/
  unflushed : Bytes
  store : Store
  traffic : Traffic

/-- What the session comes to: a clean end is a success. -/
def Transcript.result (t : Transcript) : Except Ending Unit :=
  if t.cause.isClean then .ok () else .error t.cause

namespace Session

/-! ### The beginning -/

/-- The capacity of the arena that both buffers are taken from: room for the two, rounded up to a
power of two. A sum beyond a word counts as the greatest word, and the first power of two beyond
a word comes round to zero. -/
def buffersCapacity (size : Nat) : Nat :=
  let both := min (2 * size) (Word.size - 1)
  max Arena.minCapacity (Word.wrap (PowerOfTwo.ceil both))

/-- Takes the receive buffer and the send buffer from an arena of their own. -/
def takeBuffers (size : Nat) : Except ArenaError Unit :=
  match Arena.create false (buffersCapacity size) with
  | .error error => .error error
  | .ok a =>
    match a.allocate .byte size with
    | (.error error, _) => .error error
    | (.ok (), a) => (a.allocate .byte size).1

/-- A session that has received nothing. -/
def start (sizes : Sizes) (outlet : Outlet) (store : Store) (traffic : Traffic) :
    Except ArenaError Session := do
  takeBuffers sizes.buffer
  let arena ← Arena.create true sizes.arena
  .ok ⟨sizes.buffer, arena, [], outlet, store, traffic, #[]⟩

/-! ### The course -/

/-- Lets a session run until it ends. -/
def serve (s : Session) (arrivals : List Arrival) : Ending × Session :=
  if s.isFull then (.oversized s.bufferSize, s)
  else
    match arrivals with
    | [] => s.finish
    | .pending :: rest => s.serve rest
    | .fail error :: _ => (.stream error, s)
    | .shutdown :: _ => (.shutdown, s)
    | .data bytes :: rest =>
      if bytes.isEmpty then s.finish
      else
        -- one arrival may take several reads
        match s.feed bytes with
        | (.ok (), s) => s.serve rest
        | (.error cause, s) => (cause, s)

/-- The transcript of a session that ended. -/
def transcript (s : Session) (cause : Ending) : Transcript :=
  ⟨cause, s.events.toList, s.outlet.unflushed, s.store, s.traffic.closed⟩

/-- Runs a script on a store. -/
def run (sizes : Sizes) (script : Script) (store : Store) (traffic : Traffic) : Transcript :=
  let traffic := traffic.opened
  let unstarted (cause : Ending) : Transcript :=
    ⟨cause, [], script.outlet.unflushed, store, traffic.closed⟩
  if script.shutDown then unstarted .shutdown
  else
    match start sizes script.outlet store traffic with
    | .error error => unstarted (.memory error)
    | .ok s =>
      let (cause, s) := s.serve script.arrivals
      s.transcript cause

/-- Runs scripts one after another, each on the store and the counts that the one before left. -/
def runAll : List (Sizes × Script) → Store → Traffic → List Transcript
  | [], _, _ => []
  | (sizes, script) :: rest, store, traffic =>
    let t := run sizes script store traffic
    t :: runAll rest t.store t.traffic

end Session
end RespStore
