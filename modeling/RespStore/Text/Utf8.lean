import RespStore.Bytes

/-!
# RespStore.Text.Utf8

UTF-8 text in byte strings that need not be text. A decoder reads the bytes one at a time and
yields a character for each well-formed sequence and a gap for each longest stretch that begins
a sequence without completing it.

`lossy` shows any byte string as text, with a replacement character for each gap, and `text?`
gives the text of a byte string that has no gaps.
-/

namespace RespStore.Utf8

/-- What the decoder holds between two bytes. -/
inductive State
  /-- No sequence is open. -/
  | between
  /-- A sequence whose bytes so far denote `value` lacks `owed` more bytes, and the next of them
  lies between `low` and `high`. -/
  | inside (owed : Nat) (low high : UInt8) (value : Nat)
  deriving Repr, DecidableEq

/-- Reads a byte where no sequence is open: it is a character of its own, opens a sequence, or
stands where nothing can. The bounds on the second byte rule out overlong forms, surrogates and
values above U+10FFFF. -/
def start (b : UInt8) : List (Option Char) × State :=
  if b < 0x80 then ([some (Char.ofNat b.toNat)], .between)
  else if 0xC2 ≤ b && b ≤ 0xDF then ([], .inside 1 0x80 0xBF (b.toNat - 0xC0))
  else if b = 0xE0 then ([], .inside 2 0xA0 0xBF 0)
  else if b = 0xED then ([], .inside 2 0x80 0x9F 0xD)
  else if 0xE1 ≤ b && b ≤ 0xEF then ([], .inside 2 0x80 0xBF (b.toNat - 0xE0))
  else if b = 0xF0 then ([], .inside 3 0x90 0xBF 0)
  else if 0xF1 ≤ b && b ≤ 0xF3 then ([], .inside 3 0x80 0xBF (b.toNat - 0xF0))
  else if b = 0xF4 then ([], .inside 3 0x80 0x8F 4)
  else ([none], .between)

/-- Reads one byte. A byte that cannot continue the open sequence leaves a gap in its place and
is then read as if none were open. -/
def step (state : State) (b : UInt8) : List (Option Char) × State :=
  match state with
  | .between => start b
  | .inside owed low high value =>
    if low ≤ b && b ≤ high then
      let value := value * 64 + (b.toNat - 0x80)
      if owed ≤ 1 then ([some (Char.ofNat value)], .between)
      else ([], .inside (owed - 1) 0x80 0xBF value)
    else
      let (read, next) := start b
      (none :: read, next)

/-- What is left of an open sequence where the bytes end. -/
def finish : State → List (Option Char)
  | .between => []
  | .inside .. => [none]

/-- Reads one byte after what has been read so far. -/
def advance (before : Array (Option Char) × State) (b : UInt8) : Array (Option Char) × State :=
  let (read, next) := step before.2 b
  (before.1.appendList read, next)

/-- The characters and gaps of a byte string, in order. -/
def decode (bs : Bytes) : List (Option Char) :=
  let (read, state) := bs.foldl advance (#[], .between)
  read.toList ++ finish state

/-- The character that stands for a gap. -/
def replacement : Char := '\uFFFD'

/-- A byte string as text, with a replacement character for each gap. -/
def lossy (bs : Bytes) : String := String.ofList ((decode bs).map (·.getD replacement))

/-- The text of a byte string that is UTF-8 throughout. -/
def text? (bs : Bytes) : Option String :=
  ((decode bs).mapM id).map String.ofList

/-- The UTF-8 bytes of a text. -/
def encode (text : String) : Bytes := text.toUTF8.data.toList

end RespStore.Utf8
