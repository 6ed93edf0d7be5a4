import RespStore.Settings

/-!
# RespStore.CommandLine

The command line of the server: flags with values, each of which changes one of the settings.
A flag and its value are two words, or one with an equals sign between them.
-/

namespace RespStore

/-- What is wrong with a command line. -/
inductive UsageError
  /-- A word that is no flag. -/
  | unknownFlag (word : String)
  /-- A flag at the end of the line, without its value. -/
  | missingValue (flag : String)
  /-- A value that the flag does not take. -/
  | invalidValue (flag value : String)
  deriving Repr, DecidableEq

/-- The wording of an error. -/
def UsageError.message : UsageError → String
  | .unknownFlag word => "unexpected argument: " ++ word
  | .missingValue flag => "a value is required for " ++ flag
  | .invalidValue flag value => "invalid value for " ++ flag ++ ": " ++ value

/-- The flags there are. -/
inductive Flag
  | host
  | port
  | threads
  | acceptors
  | bufferSize
  | arenaSize
  | shards
  | logLevel
  deriving Repr, DecidableEq

namespace Flag

/-- Every flag with the words for it. -/
def all : List (Flag × List String) :=
  [(host, ["--host", "-H"]), (port, ["--port", "-p"]), (threads, ["--threads", "-t"]),
    (acceptors, ["--acceptors", "-a"]), (bufferSize, ["--buffer-size"]),
    (arenaSize, ["--protocol-arena-size"]), (shards, ["--shards", "-s"]),
    (logLevel, ["--log-level"])]

/-- The flag that a word stands for. -/
def ofWord? (word : String) : Option Flag :=
  (all.find? fun (_, words) => words.contains word).map Prod.fst

/-- The number that a value stands for. -/
def number? (value : String) : Option Nat :=
  if value.isEmpty then none else Decimal.decode? (Utf8.encode value)

/-- The settings with the value of a flag, if the flag takes the value. Zero threads are as many
as there are processors, and nothing is logged at any level. -/
def assign? (flag : Flag) (value : String) (processors : Nat) (s : Settings) : Option Settings :=
  match flag with
  | host => some { s with host := value }
  | port => do
    let n ← number? value
    if n < 65536 then some { s with port := n.toUInt16 } else none
  | threads => do
    let n ← number? value
    some { s with workerThreads := if n = 0 then processors else n }
  | acceptors => do some { s with acceptors := ← number? value }
  | bufferSize => do some { s with sizes := { s.sizes with buffer := ← number? value } }
  | arenaSize => do some { s with sizes := { s.sizes with arena := ← number? value } }
  | shards => do some { s with shards := some (← number? value) }
  | logLevel => some s

end Flag

namespace CommandLine

/-- The words of a line, with flags and values that share a word taken apart. -/
def separate (words : List String) : List String :=
  words.flatMap fun word =>
    match word.splitOn "=" with
    | flag :: first :: more =>
      if (Flag.ofWord? flag).isSome then [flag, "=".intercalate (first :: more)] else [word]
    | _ => [word]

/-- The settings that a line asks for, on top of `s`. -/
def settings (processors : Nat) (s : Settings) : List String → Except UsageError Settings
  | [] => .ok s
  | word :: rest =>
    match Flag.ofWord? word, rest with
    | none, _ => .error (.unknownFlag word)
    | some _, [] => .error (.missingValue word)
    | some flag, value :: rest =>
      match flag.assign? value processors s with
      | some s => settings processors s rest
      | none => .error (.invalidValue word value)

/-- The settings that a command line asks for. -/
def parse (processors : Nat) (words : List String) : Except UsageError Settings :=
  settings processors { Settings.standard with workerThreads := processors } (separate words)

end CommandLine
end RespStore
