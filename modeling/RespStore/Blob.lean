import RespStore.Hash.Xxh3
import RespStore.Text.Quoted
import RespStore.Text.Utf8

/-!
# RespStore.Blob

Keys and values as they are kept. A blob either *views* bytes that belong to something else, such
as a receive buffer, or *owns* a buffer of its own with some room in it.

Only the bytes of a blob matter to whoever compares or hashes it. The room matters to `overwrite`,
which puts new bytes into an owned buffer when they fit and never makes the buffer larger.
-/

namespace RespStore

/-- A byte string with the place it is kept in. -/
inductive Blob
  /-- Bytes that belong to something else. -/
  | view (bytes : Bytes)
  /-- Bytes in a buffer of their own that has room for `capacity` bytes. -/
  | owned (bytes : Bytes) (capacity : Nat)
  deriving Repr, DecidableEq

namespace Blob

/-- An owned copy in a buffer of exactly the right size. -/
def copyOf (bytes : Bytes) : Blob := .owned bytes bytes.length

/-- The bytes, wherever they are kept. -/
def bytes : Blob → Bytes
  | .view bytes => bytes
  | .owned bytes _ => bytes

@[simp] theorem bytes_copyOf (bytes : Bytes) : (copyOf bytes).bytes = bytes := rfl

/-- The number of bytes. -/
def length (b : Blob) : Nat := b.bytes.length

/-- The blob has a buffer of its own. -/
def isOwned : Blob → Bool
  | .view _ => false
  | .owned _ _ => true

/-- The room of the blob's own buffer; a view has none. -/
def capacity : Blob → Nat
  | .view _ => 0
  | .owned _ capacity => capacity

@[simp] theorem capacity_copyOf (bytes : Bytes) : (copyOf bytes).capacity = bytes.length := rfl

/-- The blob in a buffer of its own: an owned blob keeps its buffer, a view is copied. -/
def own : Blob → Blob
  | .view bytes => copyOf bytes
  | .owned bytes capacity => .owned bytes capacity

@[simp] theorem bytes_own (b : Blob) : b.own.bytes = b.bytes := by cases b <;> rfl

/-- A second blob with the same bytes. The copy of an owned blob has no spare room. -/
def duplicate : Blob → Blob
  | .view bytes => .view bytes
  | .owned bytes _ => copyOf bytes

@[simp] theorem bytes_duplicate (b : Blob) : b.duplicate.bytes = b.bytes := by cases b <;> rfl

/-- Puts `source` into the blob's own buffer, if there is one and it has room enough. -/
def overwrite? (b : Blob) (source : Bytes) : Option Blob :=
  match b with
  | .view _ => none
  | .owned _ capacity => if source.length ≤ capacity then some (.owned source capacity) else none

/-- Keeps `source` in the blob's own buffer if it fits there, and in a fresh copy otherwise. -/
def replace (b : Blob) (source : Bytes) : Blob := (b.overwrite? source).getD (copyOf source)

@[simp] theorem bytes_replace (b : Blob) (source : Bytes) : (b.replace source).bytes = source := by
  cases b with
  | view => rfl
  | owned _ capacity =>
    by_cases h : source.length ≤ capacity <;> simp [replace, overwrite?, h, bytes, copyOf]

/-- The hash of the bytes. -/
def hash (b : Blob) : UInt64 := Xxh3.hash b.bytes

/-- The blob for people to read: its text between quotes, or its length if it is not text. -/
def describe (b : Blob) : String :=
  let place := if b.isOwned then "owned" else "borrowed"
  match Utf8.text? b.bytes with
  | some text => place ++ "(" ++ Quoted.quote text ++ ")"
  | none => place ++ "(" ++ toString b.length ++ " bytes)"

end Blob
end RespStore
