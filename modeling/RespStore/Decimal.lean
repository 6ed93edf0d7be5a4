import RespStore.Bytes
import RespStore.Word

/-!
# RespStore.Decimal

Decimal numerals as they stand on the wire: a number is written with as few digits as it takes,
and read from any non-empty row of digits whose value fits a 64-bit word.

Reading works from the left and stops at the first byte that is no digit and at the first digit
that would take the value out of the word, so a numeral is never wrapped into a smaller number.
-/

namespace RespStore.Decimal

/-- The numeral of `n`. -/
def encode (n : Nat) : Bytes := (Nat.toDigits 10 n).map fun c => c.toNat.toUInt8

/-- The value of a digit. -/
def digit? (b : UInt8) : Option Nat := if 48 ≤ b && b ≤ 57 then some (b.toNat - 48) else none

/-- One more digit on the right of a numeral of value `value`. -/
def extend? (value : Nat) (b : UInt8) : Option Nat := do
  let d ← digit? b
  if value * 10 + d < Word.size then some (value * 10 + d) else none

/-- The value of a row of digits, if it fits a word. The empty row counts as zero. -/
def decode? (digits : Bytes) : Option Nat := digits.foldlM extend? 0

@[simp] theorem decode?_nil : decode? [] = some 0 := rfl

end RespStore.Decimal
