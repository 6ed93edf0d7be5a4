import RespStore.Session.Run
import RespStore.Text.Record

/-!
# RespStore.Settings

What can be chosen when a server is started. Settings that pass `validate` are those with which
every session can be set up.
-/

namespace RespStore

/-- The settings of a server. -/
structure Settings where
  host : String
  /-- The port to listen on; zero is any free port. -/
  port : UInt16
  workerThreads : Nat
  /-- The number of loops that accept clients. -/
  acceptors : Nat
  /-- The memory of each session. -/
  sizes : Sizes
  /-- The number of shards, if it is not left to the number of processors. -/
  shards : Option Nat
  deriving Repr, DecidableEq

/-- What is wrong with settings. -/
inductive SettingsError
  | noHost
  | noWorkers
  | noAcceptors
  | bufferSize
  | arenaSize
  | noShards
  deriving Repr, DecidableEq

namespace Settings

/-- A server on the local host with one worker and the usual port. -/
def standard : Settings := ⟨"127.0.0.1", 6379, 1, 1, Sizes.standard, none⟩

/-- The least size of a buffer: two of them take the smallest arena. -/
def minBuffer : Nat := Arena.minCapacity / 2

/-- The greatest size of a buffer: two of them take the largest arena. -/
def maxBuffer : Nat := Arena.maxCapacity / 2

/-- The address to listen on. -/
def address (s : Settings) : String := s.host ++ ":" ++ toString s.port.toNat

/-- The first thing that is wrong with the settings. -/
def validate (s : Settings) : Except SettingsError Unit :=
  if s.host.isEmpty then .error .noHost
  else if s.workerThreads = 0 then .error .noWorkers
  else if s.acceptors = 0 then .error .noAcceptors
  else if s.sizes.buffer < minBuffer ∨ maxBuffer < s.sizes.buffer then .error .bufferSize
  else if !Arena.isValidCapacity s.sizes.arena then .error .arenaSize
  else if s.shards = some 0 then .error .noShards
  else .ok ()

/-- The settings for people to read. -/
def describe (s : Settings) : String :=
  let shards := match s.shards with
    | some count => s!"Some({count})"
    | none => "None"
  Text.record "ServerConfig" [("host", Quoted.quote s.host), ("port", toString s.port.toNat),
    ("worker_threads", toString s.workerThreads), ("acceptors", toString s.acceptors),
    ("buffer_size", toString s.sizes.buffer), ("protocol_arena_size", toString s.sizes.arena),
    ("shards", shards)]

end Settings

/-- The wording of an error. -/
def SettingsError.message : SettingsError → String
  | .noHost => "host must not be empty"
  | .noWorkers => "worker_threads must be > 0"
  | .noAcceptors => "acceptors must be > 0"
  | .bufferSize =>
    s!"buffer_size must be between {Settings.minBuffer} and {Settings.maxBuffer} bytes"
  | .arenaSize =>
    "protocol_arena_size must be a power of two between " ++ toString Arena.minCapacity ++ " and "
      ++ toString Arena.maxCapacity ++ " bytes"
  | .noShards => "shards must be > 0"

end RespStore
