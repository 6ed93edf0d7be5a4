/-!
# RespStore.Word

Sizes, lengths and positions are 64-bit words. They are natural numbers throughout the library,
and where a sum can leave the word it is wrapped at that place, so that every other computation
is plain arithmetic.
-/

namespace RespStore.Word

/-- The number of values of a word. -/
def size : Nat := 1 <<< 64

/-- What remains of a number in a word. -/
def wrap (n : Nat) : Nat := n % size

theorem wrap_of_lt {n : Nat} (h : n < size) : wrap n = n := Nat.mod_eq_of_lt h

end RespStore.Word
