import RespStore.Slots
import RespStore.Wire.Frame

/-!
# RespStore.Wire.Batch

Requests taken in from a receive buffer. A request is a row of arguments, a batch a row of
requests, and the slots of both are paid for from an arena.

`Batch.read` takes in every complete request at the start of the buffer. What follows them stays
in the buffer: a beginning of a request because the rest of it may still arrive, and malformed
bytes because the requests before them have to be answered first. So bytes are an error only
where they come first. A reader that crashes gives nothing back, whatever it has taken in before.
-/

namespace RespStore

/-- A request: a fixed row of arguments, of which the first is the name of a command. -/
abbrev Request := Slots Bytes

namespace Request

/-- What one argument takes from the arena. -/
def argument : Layout := ⟨16, 8⟩

/-- A request with room for `count` arguments. -/
def reserve (a : Arena) (count : Nat) : Except ArenaError Request × Arena :=
  match a.allocate argument count with
  | (.ok (), a) => (.ok (Slots.ofCapacity count), a)
  | (.error error, a) => (.error error, a)

/-- The name of the command. -/
def name? (r : Request) : Option Bytes := r.toList.head?

end Request

/-- Requests in the order of their arrival. -/
abbrev Batch := Slots Request

namespace Batch

/-- What one request takes from the arena, its arguments apart. -/
def entry : Layout := ⟨24, 8⟩

/-- The slots that a batch begins with. -/
def initialCapacity : Nat := 16

/-- An empty batch. -/
def reserve (a : Arena) : Except ArenaError Batch × Arena :=
  match a.allocate entry initialCapacity with
  | (.ok (), a) => (.ok (Slots.ofCapacity initialCapacity), a)
  | (.error error, a) => (.error error, a)

/-- Adds a request. A full batch moves to twice as many slots, and those it leaves are not given
back to the arena. -/
def push (b : Batch) (a : Arena) (r : Request) : Except ArenaError Batch × Arena :=
  if b.isFull then
    let capacity := max 1 (2 * b.capacity)
    match a.allocate entry capacity with
    | (.ok (), a) => (.ok ((b.widen capacity).add r), a)
    | (.error error, a) => (.error error, a)
  else (.ok (b.add r), a)

end Batch

namespace Wire

/-! ### One request -/

/-- Puts the bulk strings that stand between `position` and `stop` into a request. -/
def fill (limits : Limits) (r : Request) (bs : Bytes) (position stop : Nat) :
    Scan FrameError Request :=
  if position < stop then
    match _h : bulk limits bs with
    | .found arg used =>
      fill limits (r.add arg) (bs.drop used) (position + used) stop
    | .incomplete => .incomplete
    | .failed error => .failed error
  else .found r position
termination_by stop - position
decreasing_by
  have := bulk_used _h
  omega

theorem le_of_fill {limits : Limits} {r r' : Request} {bs : Bytes} {position stop used : Nat}
    (h : fill limits r bs position stop = .found r' used) : position ≤ used := by
  fun_induction fill limits r bs position stop with
  | case1 r bs position hlt arg step hb ih =>
    have := ih h
    omega
  | case2 => cases h
  | case3 => cases h
  | case4 => cases h; omega

/-- The outcome for a request when its frame is the outcome `scan`. -/
def Scan.request {α : Type} : Scan FrameError α → Scan ParseError α
  | .found value used => .found value used
  | .incomplete => .incomplete
  | .failed error => .failed (.frame error)

/-- A request of one argument. -/
def single (a : Arena) : Scan FrameError Bytes → Scan ParseError Request × Arena
  | .found arg used =>
    match Request.reserve a 1 with
    | (.ok r, a) => (.found (r.add arg) used, a)
    | (.error error, a) => (.failed (.arena error), a)
  | .incomplete => (.incomplete, a)
  | .failed error => (.failed (.frame error), a)

/-- A request in the form of an array. Its slots are reserved once the whole of it has arrived. -/
def array (limits : Limits) (a : Arena) (bs : Bytes) : Scan ParseError Request × Arena :=
  match header bs with
  | .incomplete => (.incomplete, a)
  | .failed error => (.failed (.frame error), a)
  | .found count start =>
    if count = 0 then (.failed (.frame .emptyArray), a)
    else if limits.maxArgs < count then
      (.failed (.frame (.manyElements count limits.maxArgs)), a)
    else
      match elementsEnd limits count (bs.drop start) start with
      | .incomplete => (.incomplete, a)
      | .failed error => (.failed (.frame error), a)
      | .found () stop =>
        -- all of the request is here, so its slots are not reserved in vain
        match Request.reserve a count with
        | (.ok r, a) => ((fill limits r (bs.drop start) start stop).request, a)
        | (.error error, a) => (.failed (.arena error), a)

/-- Reads the request at the start of `bs`. -/
def request (limits : Limits) (a : Arena) (bs : Bytes) : Scan ParseError Request × Arena :=
  match bs with
  | [] => (.incomplete, a)
  | b :: _ =>
    if b = Encoding.arrayMark then array limits a bs
    else if b = Encoding.bulkMark then single a (bulk limits bs)
    else single a (inline bs)

theorem single_used_pos {a a' : Arena} {scan : Scan FrameError Bytes} {r : Request} {used : Nat}
    (hscan : ∀ arg n, scan = .found arg n → 0 < n) (h : single a scan = (.found r used, a')) :
    0 < used := by
  unfold single at h
  split at h
  · next arg n =>
    have := hscan arg n rfl
    split at h
    · cases h; exact this
    · cases h
  · cases h
  · cases h

theorem array_used_pos {limits : Limits} {a a' : Arena} {bs : Bytes} {r : Request} {used : Nat}
    (h : array limits a bs = (.found r used, a')) : 0 < used := by
  unfold array at h
  split at h
  · cases h
  · cases h
  · next count start hd =>
    have hpos := header_used_pos hd
    repeat' split at h
    all_goals try cases h
    next hr =>
      have hfill := (Prod.mk.inj h).1
      unfold Scan.request at hfill
      split at hfill
      · next hf => cases hfill; have := le_of_fill hf; omega
      · cases hfill
      · cases hfill

theorem inline_used_pos {bs arg : Bytes} {used : Nat} (h : inline bs = .found arg used) :
    0 < used := by
  unfold inline at h
  split at h
  · cases h
  · dsimp only at h
    repeat' split at h
    all_goals cases h
    decide

theorem request_used_pos {limits : Limits} {a a' : Arena} {bs : Bytes} {r : Request} {used : Nat}
    (h : request limits a bs = (.found r used, a')) : 0 < used := by
  unfold request at h
  split at h
  · cases h
  · split at h
    · exact array_used_pos h
    · split at h
      · exact single_used_pos (fun _ _ hb => (bulk_used hb).1) h
      · exact single_used_pos (fun _ _ hi => inline_used_pos hi) h

end Wire

/-! ### Many requests -/

namespace Batch

open Wire

/-- A batch with the number of bytes its requests took. -/
structure Read where
  batch : Batch
  consumed : Nat

/-- What a batch comes to when no further request is taken into it. -/
def close (b : Batch) (consumed : Nat) : Option Read :=
  if b.isEmpty then none else some ⟨b, consumed⟩

/-- Takes every complete request at the start of `bs` into the batch, after `consumed` bytes. A
request that cannot be read ends the batch, and is an error only where the batch is empty; a batch
that finds no room to move to is an error whatever it holds, and so is a crash. -/
def readFrom (limits : Limits) (b : Batch) (a : Arena) (bs : Bytes) (consumed : Nat) :
    Except ParseError (Option Read) × Arena :=
  if bs.isEmpty then (.ok (b.close consumed), a)
  else
    match _h : request limits a bs with
    | (.found r used, a) =>
      match b.push a r with
      | (.ok b, a) => readFrom limits b a (bs.drop used) (consumed + used)
      | (.error error, a) => (.error (.arena error), a)
    | (.incomplete, a) => (.ok (b.close consumed), a)
    | (.failed error, a) =>
      if b.isEmpty || error.isCrash then (.error error, a) else (.ok (b.close consumed), a)
termination_by bs.length
decreasing_by
  have := request_used_pos _h
  have : bs ≠ [] := by simpa using ‹¬bs.isEmpty = true›
  have := List.length_pos_iff.2 this
  simp only [List.length_drop]
  omega

/-- Takes in every complete request at the start of `bs`; none if there is no complete one. -/
def read (limits : Limits) (a : Arena) (bs : Bytes) : Except ParseError (Option Read) × Arena :=
  match reserve a with
  | (.ok b, a) => readFrom limits b a bs 0
  | (.error error, a) => (.error (.arena error), a)

end Batch
end RespStore
