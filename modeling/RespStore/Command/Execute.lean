import RespStore.Command.Reply
import RespStore.Store

/-!
# RespStore.Command.Execute

Carrying out commands on a store. The number of arguments is checked before a command touches the
store, and only a write that the store accepts changes what its keys hold.
-/

namespace RespStore

namespace Command

/-- The answer to a question about the configuration. -/
def configReply (subcommand parameter : Bytes) : Reply :=
  if !Bytes.sameWord subcommand (Bytes.ascii "get") then
    .refusal (.subcommand (Utf8.lossy subcommand))
  else if Bytes.sameWord parameter (Bytes.ascii "save") then .canned .noSnapshots
  else if Bytes.sameWord parameter (Bytes.ascii "appendonly") then .canned .noLog
  else .refusal (.parameter (Utf8.lossy parameter))

/-- Carries out a command with the arguments after its name. -/
def run (command : Command) (args : List Bytes) (store : Store) : Reply × Store :=
  match command, args with
  | .get, [key] =>
    match store.get? key with
    | (some value, store) => (.value value, store)
    | (none, store) => (.canned .missing, store)
  | .set, [key, value] =>
    match store.set key value with
    | (.ok _, store) => (.canned .ok, store)
    | (.error error, store) => (.refusal (.store error), store)
  | .ping, [] => (.canned .pong, store)
  | .config, [subcommand, parameter] => (configReply subcommand parameter, store)
  | .list, [] => (.canned .commands, store)
  | command, _ => (.refusal (.arity command.name), store)

/-- A command with too few or too many arguments is refused, whatever they are. -/
theorem run_of_length_ne {command : Command} {args : List Bytes} {store : Store}
    (h : args.length + 1 ≠ command.arity) :
    command.run args store = (.refusal (.arity command.name), store) := by
  unfold run
  split <;> first | rfl | exact absurd rfl h

/-- Executes a request and answers it. -/
def execute (request : List Bytes) (store : Store) : Reply × Store :=
  match request with
  | [] => (.refusal .empty, store)
  | name :: args =>
    match ofName? name with
    | some command => command.run args store
    | none => (.refusal (.unknown (Utf8.lossy name)), store)

/-- Executes requests one after another and collects the replies. -/
def executeAll : (requests : List (List Bytes)) → Store → List Reply × Store
  | [], store => ([], store)
  | request :: rest, store =>
    let (reply, store) := execute request store
    let (replies, store) := executeAll rest store
    (reply :: replies, store)

end Command
end RespStore
