/-!
# RespStore.Bytes

The byte strings that everything else in the library is about: keys, values, requests and
replies are all `Bytes`, and none of them is assumed to be text.

A byte string is a list, so a reader of the wire works on the bytes it has not yet read and a
proof goes by induction on them. The operations here are the few that the layers share: writing
a constant of the protocol down as text, cutting a range out, comparing words without regard to
letter case, and finding the end of a line.
-/

namespace RespStore

/-- A string of bytes. -/
abbrev Bytes := List UInt8

namespace Bytes

/-- The bytes of a text in the ASCII range, one for each character. -/
def ascii (text : String) : Bytes := text.toList.map fun c => c.toNat.toUInt8

/-- Carriage return. -/
def cr : UInt8 := 13

/-- Line feed. -/
def lf : UInt8 := 10

/-- The pair of bytes that ends every header, every payload and every line of the wire. -/
def crlf : Bytes := [cr, lf]

@[simp] theorem length_crlf : crlf.length = 2 := rfl

/-! ### Ranges -/

/-- The bytes from position `start` up to, and without, position `stop`. -/
def slice (bs : Bytes) (start stop : Nat) : Bytes := (bs.drop start).take (stop - start)

theorem length_slice {bs : Bytes} {start stop : Nat} (h : stop ≤ bs.length) :
    (bs.slice start stop).length = stop - start := by
  simp [slice]; omega

@[simp] theorem slice_self (bs : Bytes) (start : Nat) : bs.slice start start = [] := by
  simp [slice]

/-! ### Lengths -/

/-- There are fewer than `n` bytes. No more than `n` of them are looked at to find out. -/
def hasFewer : Bytes → Nat → Bool
  | _, 0 => false
  | [], _ + 1 => true
  | _ :: rest, n + 1 => hasFewer rest n

theorem hasFewer_iff {bs : Bytes} {n : Nat} : hasFewer bs n = true ↔ bs.length < n := by
  induction bs generalizing n with
  | nil => cases n <;> simp [hasFewer]
  | cons b rest ih => cases n <;> simp [hasFewer, ih]

theorem le_length_of_hasFewer {bs : Bytes} {n : Nat} (h : ¬hasFewer bs n = true) :
    n ≤ bs.length := by
  rw [hasFewer_iff] at h
  exact Nat.le_of_not_lt h

/-! ### Letters -/

/-- The ASCII letters. -/
def isLetter (b : UInt8) : Bool := (65 ≤ b && b ≤ 90) || (97 ≤ b && b ≤ 122)

/-- The small letter of a capital, and any other byte as it is. -/
def lower (b : UInt8) : UInt8 := if 65 ≤ b && b ≤ 90 then b + 32 else b

/-- Two words are the same up to the case of ASCII letters. -/
def sameWord (a b : Bytes) : Bool := a.map lower == b.map lower

@[simp] theorem sameWord_self (a : Bytes) : sameWord a a = true := by simp [sameWord]

theorem length_eq_of_sameWord {a b : Bytes} (h : sameWord a b = true) :
    a.length = b.length := by
  have := congrArg List.length (eq_of_beq h)
  simpa using this

/-! ### Lines -/

/-- The position of the first `crlf`, where `passed` bytes stand before `bs`. -/
def crlfFrom (passed : Nat) : Bytes → Option Nat
  | a :: b :: rest => if a = cr ∧ b = lf then some passed else crlfFrom (passed + 1) (b :: rest)
  | _ => none

/-- The position of the first `crlf`. -/
def crlfAt? (bs : Bytes) : Option Nat := crlfFrom 0 bs

end Bytes
end RespStore
