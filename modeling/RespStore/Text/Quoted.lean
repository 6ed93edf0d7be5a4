import RespStore.Text.Invisible

/-!
# RespStore.Text.Quoted

Text between double quotes, for people to read: the quote and the backslash are escaped, the
usual control characters have short names, and what has no visible form is written by its code
point.
-/

namespace RespStore.Quoted

/-- The character has a visible form of its own. -/
def isVisible (c : Char) : Bool :=
  !(Invisible.formless.covers c.toNat || Invisible.marks.covers c.toNat ||
    Invisible.unassigned.covers c.toNat)

/-- One character inside quotes. -/
def escape (c : Char) : List Char :=
  if c = '"' then ['\\', '"']
  else if c = '\\' then ['\\', '\\']
  else if c = '\t' then ['\\', 't']
  else if c = '\n' then ['\\', 'n']
  else if c = '\r' then ['\\', 'r']
  else if c = Char.ofNat 0 then ['\\', '0']
  else if isVisible c then [c]
  else ['\\', 'u', '\x7b'] ++ Nat.toDigits 16 c.toNat ++ ['\x7d']

/-- A text between double quotes. -/
def quote (text : String) : String :=
  String.ofList (['"'] ++ text.toList.flatMap escape ++ ['"'])

end RespStore.Quoted
