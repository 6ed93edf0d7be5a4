import RespStore.Session.Run

/-!
# RespStore.Service

A server with clients that take turns. At its turn a client connects if it has not yet, may send
something, and then either waits for some bytes or leaves; after the last turn the server goes
down and the clients that stayed read what is left for them.

All sessions work on one store and one set of counts. Because the clients take turns, a session
runs only while its client has the turn, and the service hands it the store as the session
before it left it.
-/

namespace RespStore

/-- Why a client could not take its turn. -/
inductive ServiceError
  /-- There is no way from the client to the server. -/
  | unreachable
  deriving Repr, DecidableEq

/-- The wording of an error. -/
def ServiceError.message : ServiceError → String
  | .unreachable => "Network is unreachable (os error 101)"

/-- What a client waits for at the end of its turn. -/
inductive Wait
  /-- So many bytes, or the end of the stream. -/
  | bytes (count : Nat)
  /-- The end of the stream, after ending its own side. -/
  | finish
  deriving Repr, DecidableEq

/-- The turn of a client. -/
structure Turn where
  client : Nat
  send : Bytes
  wait : Wait
  deriving Repr, DecidableEq

/-- What a client received. -/
structure Received where
  bytes : Bytes
  /-- The client saw the end of the stream. -/
  atEnd : Bool
  deriving Repr, DecidableEq

/-- A connected client. -/
structure Client where
  /-- The session, as long as the server keeps it up. -/
  session : Option Session
  /-- The bytes that reached the client and that it has not taken yet. -/
  unread : Bytes

/-- A server with its clients. -/
structure Service where
  sizes : Sizes
  store : Store
  traffic : Traffic
  clients : List (Nat × Client)

namespace Service

/-- A server without clients. -/
def create (sizes : Sizes) (store : Store) : Service := ⟨sizes, store, Traffic.none, []⟩

/-- The bytes that reached the client in some events. -/
def sentBytes (events : List Event) : Bytes :=
  events.flatMap fun
    | .sent bytes => bytes
    | .received _ => []

/-- The service and a client after a step of the client's session; `stays` tells whether the
session goes on. -/
def settle (service : Service) (c : Client) (stays : Bool) (s : Session) : Service × Client :=
  let unread := c.unread ++ sentBytes s.events.toList
  let traffic := if stays then s.traffic else s.traffic.closed
  let session := if stays then some { s with events := #[] } else none
  ({ service with store := s.store, traffic }, ⟨session, unread⟩)

/-- The client with a number, connected now if it was not before. -/
def connect (service : Service) (id : Nat) : Service × Client :=
  match service.clients.lookup id with
  | some c => (service, c)
  | none =>
    let traffic := service.traffic.opened
    match Session.start service.sizes Outlet.steady service.store traffic with
    | .ok s => ({ service with traffic }, ⟨some s, []⟩)
    | .error _ => ({ service with traffic := traffic.closed }, ⟨none, []⟩)

/-- A step of the session of a client, on the store as it is now. -/
def step (service : Service) (c : Client) (f : Session → Bool × Session) : Service × Client :=
  match c.session with
  | none => (service, c)
  | some s =>
    let (stays, s) := f { s with store := service.store, traffic := service.traffic }
    service.settle c stays s

/-- The session takes in bytes. -/
def take (bytes : Bytes) (s : Session) : Bool × Session :=
  match s.feed bytes with
  | (.ok (), s) => (!s.isFull, s)
  | (.error _, s) => (false, s)

/-- The session meets the end of the stream. -/
def leave (s : Session) : Bool × Session := (false, s.finish.2)

/-- Keeps a client for its next turn. -/
def keep (service : Service) (id : Nat) (c : Client) : Service :=
  { service with clients := (id, c) :: service.clients.filter (·.1 != id) }

/-- A client takes its turn. -/
def turn (service : Service) (t : Turn) : Received × Service :=
  let (service, c) := service.connect t.client
  let (service, c) := service.step c (take t.send)
  match t.wait with
  | .bytes count =>
    let received := c.unread.take count
    let atEnd := c.session.isNone && received.length < count
    (⟨received, atEnd⟩, service.keep t.client { c with unread := c.unread.drop count })
  | .finish =>
    let (service, c) := service.step c leave
    (⟨c.unread, true⟩,
      { service with clients := service.clients.filter (·.1 != t.client) })

/-- What remains when the server has gone down. -/
structure Report where
  /-- What the clients received at their turns. -/
  turns : List Received
  /-- What the clients that stayed received in the end, by their numbers. -/
  left : List (Nat × Received)
  store : Store
  traffic : Traffic

/-- The server goes down, and every session that is left ends. -/
def shutDown (service : Service) : Service :=
  service.clients.foldl (fun service (id, c) =>
    let (service, c) := service.step c fun s => (false, s)
    service.keep id c) service

/-- The clients take turns, and then the server goes down. Without a network between them the
first client that would connect cannot. -/
def run (reachable : Bool) (service : Service) (turns : List Turn) :
    Except ServiceError Report :=
  if !reachable && !turns.isEmpty then .error .unreachable
  else
    let (received, service) := turns.foldl (fun (received, service) t =>
      let (r, service) := turn service t
      (received ++ [r], service)) ([], service)
    let service := service.shutDown
    let left := service.clients.mergeSort fun a b => a.1 ≤ b.1
    let rest := left.map fun (id, c) => (id, Received.mk c.unread true)
    .ok ⟨received, rest, service.store, service.traffic⟩

end Service
end RespStore
