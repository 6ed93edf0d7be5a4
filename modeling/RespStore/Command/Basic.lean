import RespStore.Bytes

/-!
# RespStore.Command.Basic

The commands, with their names and the number of arguments each takes. A request names its command
in its first argument, in any case of letters.
-/

namespace RespStore

/-- The commands there are. -/
inductive Command
  /-- Reads the value of a key. -/
  | get
  /-- Stores the value of a key. -/
  | set
  /-- Asks for a sign of life. -/
  | ping
  /-- Asks about the configuration. -/
  | config
  /-- Asks for the commands. -/
  | list
  deriving Repr, DecidableEq

namespace Command

/-- Every command, in the order in which they are listed. -/
def all : List Command := [.get, .set, .ping, .config, .list]

/-- The name of a command in small letters. -/
def name : Command → String
  | .get => "get"
  | .set => "set"
  | .ping => "ping"
  | .config => "config"
  | .list => "command"

/-- The number of arguments of a command, its name included. -/
def arity : Command → Nat
  | .get => 2
  | .set => 3
  | .ping => 1
  | .config => 3
  | .list => 1

/-- The command that a word names. -/
def ofName? (word : Bytes) : Option Command :=
  all.find? fun command => Bytes.sameWord word (Bytes.ascii command.name)

end Command
end RespStore
