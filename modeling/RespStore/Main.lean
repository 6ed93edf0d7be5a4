import RespStore.CommandLine
import RespStore.Service

/-!
# RespStore.Main

The program. It reads settings from the command line, checks them, and holds one session with
whoever is at the other end of its standard streams. All that happens in the session is
`Session.feed` and `Session.finish`; here bytes are only read and written.
-/

namespace RespStore

/-- The number of processors that the program counts on. -/
def processors : Nat := 1

/-- Writes what a session sent, and forgets it. -/
def emit (out : IO.FS.Stream) (s : Session) : IO Session := do
  out.write ⟨(Service.sentBytes s.events.toList).toArray⟩
  out.flush
  return { s with events := #[] }

/-- Holds a session until it ends, and tells the reason. -/
partial def converse (input out : IO.FS.Stream) (s : Session) : IO Ending := do
  if s.isFull then return .oversized s.bufferSize
  let chunk ← input.read (s.bufferSize - s.buffered.length).toUSize
  if chunk.isEmpty then
    return s.finish.1
  match s.feed chunk.data.toList with
  | (.ok (), s) => converse input out (← emit out s)
  | (.error cause, s) =>
    let _ ← emit out s
    return cause

/-- Holds a session under some settings, and answers with the exit status. -/
def serve (s : Settings) : IO UInt32 := do
  let report ← IO.getStderr
  let store := Store.create (s.shards.getD (4 * processors))
  match Session.start s.sizes Outlet.steady store Traffic.none.opened with
  | .error error =>
    report.putStrLn ("Error: " ++ error.message)
    return 1
  | .ok session =>
    let cause ← converse (← IO.getStdin) (← IO.getStdout) session
    if cause.isClean then return 0
    report.putStrLn ("Error: " ++ cause.message)
    return 1

end RespStore

/-- The entry of the program. -/
def main (args : List String) : IO UInt32 := do
  let report ← IO.getStderr
  match RespStore.CommandLine.parse RespStore.processors args with
  | .error error =>
    report.putStrLn ("error: " ++ error.message)
    return 2
  | .ok s =>
    match s.validate with
    | .error error =>
      report.putStrLn ("Error: " ++ error.message)
      return 1
    | .ok () => RespStore.serve s
