import RespStore.Decimal

/-!
# RespStore.Wire.Encoding

How values stand on the wire, and how many bytes those take that are written piece by piece. A
line is a mark, a text and the end of the line; line breaks inside the text become blanks, so that
no text can end the line early. A bulk string announces the length of its payload, which may then
hold anything, and an array announces the number of its items.
-/

namespace RespStore.Encoding

/-- Opens a line that reports a success. -/
def successMark : UInt8 := 43

/-- Opens a line that reports an error. -/
def errorMark : UInt8 := 45

/-- Opens an integer. -/
def integerMark : UInt8 := 58

/-- Opens a bulk string. -/
def bulkMark : UInt8 := 36

/-- Opens an array. -/
def arrayMark : UInt8 := 42

/-- A blank in the place of a line break, and any other byte as it is. -/
def unbroken (b : UInt8) : UInt8 := if b = Bytes.cr ∨ b = Bytes.lf then 32 else b

/-- A line of text. -/
def line (mark : UInt8) (text : Bytes) : Bytes := mark :: text.map unbroken ++ Bytes.crlf

/-- The number of bytes of a line with `length` bytes of text. -/
def lineSize (length : Nat) : Nat := 1 + length + Bytes.crlf.length

theorem length_line (mark : UInt8) (text : Bytes) :
    (line mark text).length = lineSize text.length := by
  simp [line, lineSize]; omega

/-- A bulk string. -/
def bulk (payload : Bytes) : Bytes :=
  bulkMark :: Decimal.encode payload.length ++ Bytes.crlf ++ payload ++ Bytes.crlf

/-- The number of bytes of a bulk string with `length` bytes of payload. -/
def bulkSize (length : Nat) : Nat :=
  1 + (Decimal.encode length).length + Bytes.crlf.length + length + Bytes.crlf.length

theorem length_bulk (payload : Bytes) : (bulk payload).length = bulkSize payload.length := by
  simp [bulk, bulkSize]; omega

/-- The number of bytes of a bulk string as a word, for a payload whose length is any word. Memory
holds no payload so long that this differs from `bulkSize`. -/
def bulkSizeWord (length : Nat) : Nat := Word.wrap (bulkSize length)

theorem bulkSizeWord_of_lt {length : Nat} (h : bulkSize length < Word.size) :
    bulkSizeWord length = bulkSize length := Word.wrap_of_lt h

/-- The bulk string that stands for no value. -/
def absent : Bytes := Bytes.ascii "$-1\r\n"

/-- An integer. -/
def integer (n : Nat) : Bytes := integerMark :: Decimal.encode n ++ Bytes.crlf

/-- An array of encoded items. -/
def array (items : List Bytes) : Bytes :=
  arrayMark :: Decimal.encode items.length ++ Bytes.crlf ++ items.flatten

end RespStore.Encoding
