import RespStore.Proofs.Wire.Division

/-!
# RespStore.Proofs.Wire.Checked

The reader cannot be made to crash, whatever a client sends. `Checked.read` reads as `Batch.read`
does, but from positions in the bytes, as a machine has them, and it checks every step that could go
wrong there: a byte or a range has to lie in the bytes, a sum has to be a word, what is assumed of a
first byte has to hold, a row of slots has to have room for what is put there, and a loop has to go
forward. A check that fails gives `none`.

No check fails on bytes that fit in memory, and the outcome is that of `Batch.read` (`read_eq`). The
chain of facts behind it: a header ends inside the bytes (`header_eq`), a payload is read once its
end is known to be there (`bulk_eq`), and the second pass over an array finds what the first pass
saw, element by element (`fill_eq`).
-/

namespace RespStore

open Wire

namespace Checked

variable {limits : Limits} {bs : Bytes}

/-! ### Steps -/

/-- The sum of two words, if it is a word. -/
def add (m n : Nat) : Option Nat := if m + n < Word.size then some (m + n) else none

/-- The bytes from `start` on, which may be where they end. -/
def suffix (bs : Bytes) (start : Nat) : Option Bytes :=
  if start ≤ bs.length then some (bs.drop start) else none

/-- The bytes from `start` up to `stop`, if there are so many. -/
def slice (bs : Bytes) (start stop : Nat) : Option Bytes :=
  if start ≤ stop ∧ stop ≤ bs.length then some (bs.slice start stop) else none

/-- The position of a loop that goes on `used` bytes further. -/
def advance (position used : Nat) : Option { next : Nat // position < next } :=
  if h : 0 < used ∧ position + used < Word.size then
    some ⟨position + used, Nat.lt_add_of_pos_right h.1⟩
  else none

theorem add_of_lt {m n : Nat} (h : m + n < Word.size) : add m n = some (m + n) := if_pos h

theorem suffix_of_le {start : Nat} (h : start ≤ bs.length) :
    suffix bs start = some (bs.drop start) := if_pos h

theorem slice_of_le {start stop : Nat} (hle : start ≤ stop) (hstop : stop ≤ bs.length) :
    slice bs start stop = some (bs.slice start stop) := if_pos ⟨hle, hstop⟩

theorem advance_of_pos {position used : Nat} (hpos : 0 < used)
    (h : position + used < Word.size) :
    advance position used = some ⟨position + used, Nat.lt_add_of_pos_right hpos⟩ :=
  dif_pos ⟨hpos, h⟩

/-- Slots of an arena. The bytes in use and those of the slots have to add up to a word. -/
def allocate (a : Arena) (slot : Layout) (count : Nat) :
    Option (Except ArenaError Unit × Arena) := do
  match Arena.sizeOf? slot count with
  | some bytes =>
    let _ ← add a.used bytes
    some (a.reserve bytes)
  | none => some (.error .overflow, a)

/-! ### Frames -/

/-- Reads the header at the start of `bs`. -/
def header (bs : Bytes) : Option (Scan FrameError Nat) := do
  let line ← suffix bs 1
  match Bytes.crlfAt? line with
  | none =>
    if !bs.hasFewer (maxOpenHeader + 1) then
      some (.failed (.badLength "length header is not terminated"))
    else some .incomplete
  | some length =>
    let stop ← add 1 length
    let digits ← slice bs 1 stop
    if digits.isEmpty then some (.failed (.badLength "empty"))
    else
      match Decimal.decode? digits with
      | some value =>
        let stop ← add 1 digits.length
        let used ← add stop Bytes.crlf.length
        some (.found value used)
      | none => some (.failed (.badLength (Utf8.lossy digits)))

/-- Reads the bulk string at the start of `bs`, whose first byte has to be its mark. -/
def bulk (limits : Limits) (bs : Bytes) : Option (Scan FrameError Bytes) := do
  guard (bs.head? = some Encoding.bulkMark)
  match ← header bs with
  | .incomplete => some .incomplete
  | .failed error => some (.failed error)
  | .found length start =>
    if limits.maxBulk < length then some (.failed (.longPayload length limits.maxBulk))
    else
      let stop ← add start length
      let next ← add stop Bytes.crlf.length
      if bs.hasFewer next then some .incomplete
      else
        let ending ← slice bs stop next
        if ending ≠ Bytes.crlf then some (.failed .unendedPayload)
        else
          let payload ← slice bs start stop
          some (.found payload next)

/-- Looks through `count` bulk strings from `position` on. -/
def elementsEnd (limits : Limits) (bs : Bytes) :
    (count position : Nat) → Option (Scan FrameError Unit)
  | 0, position => some (.found () position)
  | count + 1, position => do
    let rest ← suffix bs position
    match rest.head? with
    | none => some .incomplete
    | some b =>
      if b ≠ Encoding.bulkMark then some (.failed (.notBulk b))
      else
        match ← bulk limits rest with
        | .found _ used =>
          let next ← add position used
          elementsEnd limits bs count next
        | .incomplete => some .incomplete
        | .failed error => some (.failed error)

/-- Puts the bulk strings between `position` and `stop` into a request. They have all been looked
through, so another outcome than a bulk string is not expected here. -/
def fill (limits : Limits) (bs : Bytes) (r : Request) (position stop : Nat) :
    Option (Request × Nat) :=
  if position < stop then do
    let rest ← suffix bs position
    match ← bulk limits rest with
    | .found arg used =>
      let r ← r.push? arg
      let ⟨next, _h⟩ ← advance position used
      fill limits bs r next stop
    | .incomplete => none
    | .failed _ => none
  else some (r, position)
termination_by stop - position

/-- Reads the inline ping at the start of `bs`. -/
def inline (bs : Bytes) : Option (Scan FrameError Bytes) := do
  let count := min bs.length inlinePing.length
  let seen ← slice bs 0 count
  let word ← slice inlinePing 0 count
  if !Bytes.sameWord seen word then
    let b ← bs.head?
    some (.failed (if Bytes.isLetter b then .unknownInline else .unknownType b))
  else if count < inlinePing.length then some .incomplete
  else
    let arg ← slice bs 0 4
    some (.found arg inlinePing.length)

/-! ### Requests -/

/-- A request with room for `count` arguments. -/
def reserve (a : Arena) (count : Nat) : Option (Except ArenaError Request × Arena) := do
  match ← allocate a Request.argument count with
  | (.ok (), a) => some (.ok (Slots.ofCapacity count), a)
  | (.error error, a) => some (.error error, a)

/-- A request of one argument. -/
def single (a : Arena) : Scan FrameError Bytes → Option (Scan ParseError Request × Arena)
  | .found arg used => do
    match ← reserve a 1 with
    | (.ok r, a) =>
      let r ← r.push? arg
      some (.found r used, a)
    | (.error error, a) => some (.failed (.arena error), a)
  | .incomplete => some (.incomplete, a)
  | .failed error => some (.failed (.frame error), a)

/-- A request in the form of an array, whose first byte has to be its mark. -/
def array (limits : Limits) (a : Arena) (bs : Bytes) :
    Option (Scan ParseError Request × Arena) := do
  guard (bs.head? = some Encoding.arrayMark)
  match ← header bs with
  | .incomplete => some (.incomplete, a)
  | .failed error => some (.failed (.frame error), a)
  | .found count start =>
    if count = 0 then some (.failed (.frame .emptyArray), a)
    else if limits.maxArgs < count then
      some (.failed (.frame (.manyElements count limits.maxArgs)), a)
    else
      match ← elementsEnd limits bs count start with
      | .incomplete => some (.incomplete, a)
      | .failed error => some (.failed (.frame error), a)
      | .found () stop =>
        match ← reserve a count with
        | (.ok r, a) =>
          let (r, used) ← fill limits bs r start stop
          some (.found r used, a)
        | (.error error, a) => some (.failed (.arena error), a)

/-- Reads the request at the start of `bs`, where there has to be a byte. -/
def request (limits : Limits) (a : Arena) (bs : Bytes) :
    Option (Scan ParseError Request × Arena) := do
  let b ← bs.head?
  if b = Encoding.arrayMark then array limits a bs
  else if b = Encoding.bulkMark then single a (← bulk limits bs)
  else single a (← inline bs)

/-- Adds a request to a batch. -/
def push (b : Batch) (a : Arena) (r : Request) : Option (Except ArenaError Batch × Arena) :=
  if b.isFull then do
    let twice ← add b.capacity b.capacity
    let capacity := max 1 twice
    match ← allocate a Batch.entry capacity with
    | (.ok (), a) =>
      let b ← (b.widen capacity).push? r
      some (.ok b, a)
    | (.error error, a) => some (.error error, a)
  else do
    let b ← b.push? r
    some (.ok b, a)

/-- Takes every complete request from `consumed` on into the batch. -/
def readFrom (limits : Limits) (bs : Bytes) (b : Batch) (a : Arena) (consumed : Nat) :
    Option (Except ParseError (Option Batch.Read) × Arena) :=
  if consumed < bs.length then do
    let rest ← suffix bs consumed
    match ← request limits a rest with
    | (.found r used, a) =>
      match ← push b a r with
      | (.ok b, a) =>
        let ⟨next, _h⟩ ← advance consumed used
        readFrom limits bs b a next
      | (.error error, a) => some (.error (.arena error), a)
    | (.incomplete, a) => some (.ok (b.close consumed), a)
    | (.failed error, a) =>
      if b.isEmpty then some (.error error, a) else some (.ok (b.close consumed), a)
  else some (.ok (b.close consumed), a)
termination_by bs.length - consumed

/-- Takes in every complete request at the start of `bs`. -/
def read (limits : Limits) (a : Arena) (bs : Bytes) :
    Option (Except ParseError (Option Batch.Read) × Arena) := do
  match ← allocate a Batch.entry Batch.initialCapacity with
  | (.ok (), a) => readFrom limits bs (Slots.ofCapacity Batch.initialCapacity) a 0
  | (.error error, a) => some (.error (.arena error), a)

/-! ### No check fails -/

theorem addressable_drop (hbs : bs.Addressable) (n : Nat) : Bytes.Addressable (bs.drop n) :=
  Nat.lt_of_le_of_lt (List.length_drop ▸ Nat.sub_le ..) hbs

/-- A position in the bytes is a word. -/
theorem lt_size_of_le (hbs : bs.Addressable) {n : Nat} (h : n ≤ bs.length) :
    n < Word.size := by
  unfold Bytes.Addressable at hbs
  unfold Word.size
  omega

/-- An arena is smaller than half a word, and so is what it is asked for. -/
theorem allocate_eq (a : Arena) (slot : Layout) (count : Nat) :
    allocate a slot count = some (a.allocate slot count) := by
  rw [allocate, Arena.allocate]
  cases hsize : Arena.sizeOf? slot count with
  | none => rfl
  | some bytes =>
    have hbytes : bytes ≤ 2 ^ 63 := by
      unfold Arena.sizeOf? at hsize
      split at hsize
      · cases hsize
        omega
      · cases hsize
    have hused := a.used_le
    have hcapacity := a.capacity_le
    have hsum : a.used + bytes < Word.size := by
      unfold Arena.maxCapacity at hcapacity
      unfold Word.size
      omega
    simp [add_of_lt hsum]

theorem reserve_eq (a : Arena) (count : Nat) :
    reserve a count = some (Request.reserve a count) := by
  rw [reserve, allocate_eq, Request.reserve]
  rcases a.allocate Request.argument count with ⟨_ | _, a⟩ <;> rfl

/-- What is reserved for a request is as many empty slots as were asked for. -/
theorem slots_of_reserve {a a' : Arena} {count : Nat} {r : Request}
    (h : Request.reserve a count = (.ok r, a')) : r.capacity = count ∧ r.used = 0 := by
  unfold Request.reserve at h
  split at h
  · cases h
    exact ⟨Slots.capacity_ofCapacity count, rfl⟩
  · cases h

/-- **A header ends inside the bytes**, where it has an end. -/
theorem header_eq (hbs : bs.Addressable) (hne : bs ≠ []) :
    header bs = some (Wire.header bs) := by
  have hpos := List.length_pos_iff.2 hne
  rw [header, Wire.header, suffix_of_le hpos, List.drop_one]
  cases hcrlf : Bytes.crlfAt? bs.tail with
  | none =>
    simp only [Option.bind_eq_bind, Option.bind_some, hcrlf]
    split <;> rfl
  | some length =>
    -- `length` counts from the second byte on, and the line break lies inside the bytes as well
    have hend := Bytes.crlfAt?_add_two_le hcrlf
    rw [List.length_tail] at hend
    have hstop : 1 + length ≤ bs.length := by omega
    have hdigits : bs.slice 1 (1 + length) = bs.tail.take length := by
      rw [Bytes.slice, List.drop_one, Nat.add_sub_cancel_left]
    have hlength : (bs.tail.take length).length ≤ length := List.length_take_le ..
    simp only [Option.bind_eq_bind, Option.bind_some, hcrlf,
      add_of_lt (lt_size_of_le hbs (by omega : 1 + length ≤ _)),
      slice_of_le (Nat.le_add_right ..) hstop, hdigits]
    split
    · rfl
    · cases Decimal.decode? (bs.tail.take length) with
      | none => rfl
      | some value =>
        rw [add_of_lt (lt_size_of_le hbs (by omega))]
        simp only [Option.bind_some]
        rw [add_of_lt (lt_size_of_le hbs (by rw [Bytes.length_crlf]; omega))]
        rfl

/-- **A payload is read once its end is known to be there**, where every end that a header may
announce is a word. -/
theorem bulk_eq_of_lt (hbs : bs.Addressable) (hmark : bs.head? = some Encoding.bulkMark)
    (hfits : ∀ length start, Wire.header bs = .found length start → length ≤ limits.maxBulk →
      start + length + 2 < Word.size) :
    bulk limits bs = some (Wire.bulk limits bs) := by
  have hne : bs ≠ [] := by
    rintro rfl
    cases hmark
  rw [bulk, header_eq hbs hne, hmark]
  simp only [guard, Option.bind_eq_bind, if_true, Option.pure_def, Option.bind_some]
  cases hd : Wire.header bs with
  | incomplete => rw [Wire.bulk, hd]
  | failed error => rw [Wire.bulk, hd]
  | found length start =>
    dsimp only
    by_cases hlong : limits.maxBulk < length
    · rw [if_pos hlong, Wire.bulk, hd]
      dsimp only
      rw [if_pos hlong]
    · have hnext := hfits length start hd (Nat.le_of_not_lt hlong)
      rw [Wire.bulk_of_header hd hnext, if_neg hlong, if_neg hlong,
        add_of_lt (Nat.lt_of_le_of_lt (Nat.le_add_right ..) hnext)]
      simp only [Option.bind_some, Bytes.length_crlf]
      rw [add_of_lt hnext]
      simp only [Option.bind_some, Bytes.hasFewer_iff]
      split
      · rfl
      · next hthere =>
        have hthere := Nat.le_of_not_lt hthere
        rw [slice_of_le (Nat.le_add_right ..) hthere]
        simp only [Option.bind_some]
        split
        · rfl
        · rw [slice_of_le (Nat.le_add_right ..) (by omega)]
          rfl

/-- The limits of a session keep every such end below a word. -/
theorem bulk_eq (hl : limits.Addressable) (hbs : bs.Addressable)
    (hmark : bs.head? = some Encoding.bulkMark) : bulk limits bs = some (Wire.bulk limits bs) := by
  refine bulk_eq_of_lt hbs hmark ?_
  intro length start hd hallowed
  have hstart := header_used_le hd
  unfold Limits.Addressable at hl
  unfold Bytes.Addressable at hbs
  unfold Word.size
  omega

/-- The first pass over an array. It never goes beyond the bytes. -/
theorem elementsEnd_eq (hl : limits.Addressable) (hbs : bs.Addressable) (count : Nat)
    {position : Nat} (hle : position ≤ bs.length) :
    elementsEnd limits bs count position =
      some (Wire.elementsEnd limits count (bs.drop position) position) := by
  induction count generalizing position with
  | zero => rfl
  | succ count ih =>
    rw [elementsEnd, suffix_of_le hle]
    cases hrest : bs.drop position with
    | nil => rfl
    | cons b rest =>
      simp only [Option.bind_eq_bind, Option.bind_some, List.head?_cons, Wire.elementsEnd]
      split
      · rfl
      · next hmark =>
        have haddr : Bytes.Addressable (b :: rest) := hrest ▸ addressable_drop hbs position
        rw [bulk_eq hl haddr (by rw [not_not.1 hmark]; rfl), Option.bind_some]
        cases hread : Wire.bulk limits (b :: rest) with
        | incomplete => rfl
        | failed error => rfl
        | found arg used =>
          have hused := (bulk_used hread).2
          rw [← hrest, List.length_drop] at hused
          have hnext : position + used ≤ bs.length := by omega
          dsimp only
          rw [add_of_lt (lt_size_of_le hbs (by omega)), Option.bind_some, ih hnext, ← hrest,
            List.drop_drop]

/-- A row with room does not refuse. -/
theorem push?_of_lt {α : Type} {row : Slots α} (h : row.used < row.capacity) (a : α) :
    row.push? a = some (row.add a) := by
  rw [Slots.push?, if_neg]
  rw [Slots.isFull_iff]
  omega

/-- **The second pass over an array finds what the first pass saw.** It reads one bulk string for
each that was counted, its row takes them all, and it stops where the first pass did. -/
theorem fill_eq (hl : limits.Addressable) (hbs : bs.Addressable) (count : Nat)
    {position stop : Nat} (hle : position ≤ bs.length)
    (hend : Wire.elementsEnd limits count (bs.drop position) position = .found () stop)
    {r : Request} (hroom : r.used + count ≤ r.capacity) :
    position ≤ stop ∧ stop ≤ bs.length ∧
      ∃ r', fill limits bs r position stop = some (r', stop) ∧
        Wire.fill limits r (bs.drop position) position stop = .found r' stop ∧
        r'.used = r.used + count := by
  -- by what the first pass still has to look through: each step takes one slot of the row
  induction count generalizing position r with
  | zero =>
    cases hend
    have hdone : ¬stop < stop := Nat.lt_irrefl _
    exact ⟨Nat.le_refl _, hle, r, by rw [fill, if_neg hdone],
      by rw [Wire.fill, if_neg hdone], rfl⟩
  | succ count ih =>
    cases hrest : bs.drop position with
    | nil =>
      rw [hrest] at hend
      cases hend
    | cons b rest =>
      have haddr : Bytes.Addressable (b :: rest) := hrest ▸ addressable_drop hbs position
      rw [hrest, Wire.elementsEnd] at hend
      split at hend
      · cases hend
      · next hmark =>
        split at hend
        · next arg used hread =>
          obtain ⟨hpos, hused⟩ := bulk_used hread
          rw [← hrest, List.length_drop] at hused
          rw [← hrest, List.drop_drop] at hend
          obtain ⟨hstop, hlong, r', hfill, hwire, hcount⟩ :=
            ih (by omega) hend (r := r.add arg)
              (by rw [Slots.used_add (by omega), Slots.capacity_add]; omega)
          rw [Slots.used_add (by omega)] at hcount
          have hlt : position < stop := by omega
          refine ⟨hlt.le, hlong, r', ?_, ?_, by omega⟩
          · have hbulk := bulk_eq hl haddr (by rw [not_not.1 hmark]; rfl)
            rw [fill, if_pos hlt, suffix_of_le hle, hrest]
            simp only [Option.bind_eq_bind, Option.bind_some]
            rw [hbulk, hread]
            simp only [Option.bind_some]
            rw [push?_of_lt (by omega),
              advance_of_pos hpos (lt_size_of_le hbs (by omega))]
            exact hfill
          · rw [Wire.fill, if_pos hlt]
            split
            · next hfound =>
              rw [hread] at hfound
              cases hfound
              rw [← hrest, List.drop_drop]
              exact hwire
            · next hfound => rw [hread] at hfound; cases hfound
            · next hfound => rw [hread] at hfound; cases hfound
        · cases hend
        · cases hend

/-- The inline ping is compared no further than the bytes go. -/
theorem inline_eq (hne : bs ≠ []) : inline bs = some (Wire.inline bs) := by
  cases bs with
  | nil => exact absurd rfl hne
  | cons b rest =>
    have hcount : (List.take inlinePing.length (b :: rest)).length =
        min (b :: rest).length inlinePing.length := by
      rw [List.length_take, Nat.min_comm]
    have hseen : Bytes.slice (b :: rest) 0 (min (b :: rest).length inlinePing.length) =
        List.take inlinePing.length (b :: rest) := by
      rw [Bytes.slice, List.drop_zero, Nat.sub_zero, ← hcount, List.take_eq_take_iff]
      omega
    have hword : Bytes.slice inlinePing 0 (min (b :: rest).length inlinePing.length) =
        inlinePing.take (min (b :: rest).length inlinePing.length) := rfl
    simp only [inline, Wire.inline, slice_of_le (Nat.zero_le _) (Nat.min_le_left ..),
      slice_of_le (Nat.zero_le _) (Nat.min_le_right ..), hseen, hword, hcount,
      Option.bind_eq_bind, Option.bind_some]
    split
    · rfl
    · split
      · rfl
      · next hlong =>
        have hsize : inlinePing.length = 6 := rfl
        rw [slice_of_le (Nat.zero_le _) (by omega)]
        rfl

theorem single_eq (a : Arena) (scan : Scan FrameError Bytes) :
    single a scan = some (Wire.single a scan) := by
  cases scan with
  | incomplete => rfl
  | failed error => rfl
  | found arg used =>
    rw [single, Wire.single, reserve_eq]
    cases hreserve : Request.reserve a 1 with
    | mk result a' =>
      cases result with
      | error error => rfl
      | ok r =>
        obtain ⟨hcapacity, hused⟩ := slots_of_reserve hreserve
        simp only [Option.bind_eq_bind, Option.bind_some]
        rw [push?_of_lt (by omega)]
        rfl

theorem array_eq (hl : limits.Addressable) (hbs : bs.Addressable)
    (hmark : bs.head? = some Encoding.arrayMark) (a : Arena) :
    array limits a bs = some (Wire.array limits a bs) := by
  have hne : bs ≠ [] := by
    rintro rfl
    cases hmark
  rw [array, Wire.array, header_eq hbs hne, hmark]
  simp only [guard, Option.bind_eq_bind, if_true, Option.pure_def, Option.bind_some]
  cases hd : Wire.header bs with
  | incomplete => rfl
  | failed error => rfl
  | found count start =>
    have hle := header_used_le hd
    dsimp only
    split
    · rfl
    · split
      · rfl
      · rw [elementsEnd_eq hl hbs count hle, Option.bind_some]
        cases hend : Wire.elementsEnd limits count (bs.drop start) start with
        | incomplete => rfl
        | failed error => rfl
        | found _ stop =>
          dsimp only
          rw [reserve_eq, Option.bind_some]
          cases hreserve : Request.reserve a count with
          | mk result a' =>
            cases result with
            | error error => rfl
            | ok r =>
              obtain ⟨hcapacity, hused⟩ := slots_of_reserve hreserve
              obtain ⟨-, -, r', hfill, hwire, -⟩ :=
                fill_eq hl hbs count hle hend (r := r) (by omega)
              dsimp only
              rw [hfill, hwire]
              rfl

theorem request_eq (hl : limits.Addressable) (hbs : bs.Addressable) (hne : bs ≠ [])
    (a : Arena) : request limits a bs = some (Wire.request limits a bs) := by
  cases bs with
  | nil => exact absurd rfl hne
  | cons b rest =>
    rw [request, Wire.request, List.head?_cons]
    simp only [Option.bind_eq_bind, Option.bind_some]
    split
    · next hmark => exact array_eq hl hbs (congrArg some hmark) a
    · split
      · next hmark =>
        rw [bulk_eq hl hbs (congrArg some hmark), Option.bind_some, single_eq]
      · rw [inline_eq hne, Option.bind_some, single_eq]

/-- A batch with twice as many slots has one to spare. -/
theorem room_of_widen (b : Batch) :
    (b.widen (max 1 (2 * b.capacity))).used < (b.widen (max 1 (2 * b.capacity))).capacity := by
  have hused := b.used_le
  rw [Slots.capacity_widen (by omega), Slots.used_widen]
  unfold Slots.capacity
  omega

/-- A batch that is full is no longer than the bytes that filled it, so twice as many slots can be
counted. -/
theorem push_eq {b : Batch} (hwide : b.isFull = true → b.capacity + b.capacity < Word.size)
    (a : Arena) (r : Request) : push b a r = some (b.push a r) := by
  rw [push, Batch.push]
  split
  · next hfull =>
    rw [add_of_lt (hwide hfull)]
    simp only [Option.bind_eq_bind, Option.bind_some]
    rw [allocate_eq, Option.bind_some, ← Nat.two_mul]
    cases a.allocate Batch.entry (max 1 (2 * b.capacity)) with
    | mk result a' =>
      cases result with
      | error error => rfl
      | ok =>
        dsimp only
        rw [push?_of_lt (room_of_widen b)]
        rfl
  · next hroom =>
    rw [Slots.isFull_iff] at hroom
    rw [push?_of_lt (by omega)]
    rfl

/-- A request ends inside the bytes. -/
theorem le_of_request (hbs : bs.Addressable) {a a' : Arena} {r : Request} {used : Nat}
    (h : Wire.request limits a bs = (.found r used, a')) : used ≤ bs.length := by
  by_cases hframe : ∃ f : Frame, f.WellFormed limits ∧ f.bytes <+: bs
  · obtain ⟨f, hf, rest, rfl⟩ := hframe
    rw [request_bytes hf hbs] at h
    split at h
    · cases h
      rw [List.length_append]
      exact Nat.le_add_right ..
    · cases h
  · have hnone : ∀ f : Frame, f.WellFormed limits → ¬f.bytes <+: bs :=
      fun f hf hfirst => hframe ⟨f, hf, hfirst⟩
    rcases request_cases_of_no_frame hbs hnone with hwait | ⟨error, hfail⟩
    · rw [hwait] at h
      cases h
    · rw [hfail] at h
      cases h

theorem used_of_push {b b' : Batch} {a a' : Arena} {r : Request}
    (h : b.push a r = (.ok b', a')) : b'.used = b.used + 1 := by
  unfold Batch.push at h
  split at h
  · dsimp only at h
    split at h
    · cases h
      exact Slots.used_add (room_of_widen b) r
    · cases h
  · next hroom =>
    cases h
    rw [Slots.isFull_iff] at hroom
    exact Slots.used_add (by omega) r

/-- **The loop over the requests.** Each takes a byte at least, so a batch never holds more of them
than bytes were consumed. -/
theorem readFrom_eq (hl : limits.Addressable) (hbs : bs.Addressable) {b : Batch} {a : Arena}
    {consumed : Nat} (hle : consumed ≤ bs.length) (hused : b.used ≤ consumed) :
    readFrom limits bs b a consumed =
      some (Batch.readFrom limits b a (bs.drop consumed) consumed) := by
  -- the bound on the batch is what keeps twice its capacity a word
  induction hn : bs.length - consumed using Nat.strong_induction_on generalizing b a consumed with
  | _ n ih =>
    rw [readFrom]
    split
    · next hlt =>
      have hne : bs.drop consumed ≠ [] := by
        rw [ne_eq, List.drop_eq_nil_iff]
        omega
      have haddr := addressable_drop hbs consumed
      rw [suffix_of_le hle]
      simp only [Option.bind_eq_bind, Option.bind_some]
      rw [request_eq hl haddr hne, Option.bind_some]
      cases hrequest : Wire.request limits a (bs.drop consumed) with
      | mk scan a₁ =>
        cases scan with
        | incomplete => rw [Batch.readFrom_incomplete hrequest]
        | failed error =>
          rw [Batch.readFrom_failed hrequest, request_failed_isCrash hl haddr hrequest,
            Bool.or_false]
          dsimp only
          split <;> rfl
        | found r used =>
          have hpos := request_used_pos hrequest
          have hlong := le_of_request haddr hrequest
          rw [List.length_drop] at hlong
          have hwide : b.isFull = true → b.capacity + b.capacity < Word.size := by
            intro hfull
            rw [Slots.isFull_iff] at hfull
            unfold Bytes.Addressable at hbs
            unfold Word.size
            omega
          dsimp only
          rw [push_eq hwide, Option.bind_some]
          cases hpush : b.push a₁ r with
          | mk result a₂ =>
            cases result with
            | error error => rw [Batch.readFrom_stuck hne hrequest hpush]
            | ok b' =>
              rw [Batch.readFrom_taken hne hrequest hpush, List.drop_drop]
              dsimp only
              rw [advance_of_pos hpos (lt_size_of_le hbs (by omega)), Option.bind_some]
              have hmore := used_of_push hpush
              show readFrom limits bs b' a₂ (consumed + used) = _
              exact ih (bs.length - (consumed + used)) (by omega) (by omega) (by omega) rfl
    · next hend =>
      rw [List.drop_eq_nil_iff.2 (Nat.le_of_not_lt hend), Batch.readFrom]
      rfl

/-- **No check fails**, and what is read is what `Batch.read` reads. -/
theorem read_eq (hl : limits.Addressable) (hbs : bs.Addressable) (a : Arena) :
    read limits a bs = some (Batch.read limits a bs) := by
  rw [read, Batch.read, allocate_eq, Batch.reserve]
  cases a.allocate Batch.entry Batch.initialCapacity with
  | mk result a =>
    cases result with
    | error error => rfl
    | ok =>
      exact readFrom_eq hl hbs (Nat.zero_le _) (Nat.zero_le _)

/-- **The reader of a session cannot be made to crash.** For buffers of any size, any arena and any
bytes that fit in memory, every check of `Checked.read` succeeds and its outcome is that of
`Batch.read`.

Wherever an array begins, the second pass over it puts exactly as many arguments into the request as
the first pass has counted, none of them refused, and stops where the first pass has stopped, inside
the bytes. A batch that is read takes a byte at least and no more than there are, and holds a
request, and every request has an argument. -/
theorem read_safe (size : Nat) (a : Arena) (hbs : bs.Addressable) :
    let limits := Limits.ofBuffer size
    read limits a bs = some (Batch.read limits a bs) ∧
      (∀ rest, rest <:+ bs → ∀ count start stop, Wire.header rest = .found count start →
        Wire.elementsEnd limits count (rest.drop start) start = .found () stop →
        stop ≤ rest.length ∧ ∃ r,
          Wire.fill limits (Slots.ofCapacity count) (rest.drop start) start stop = .found r stop ∧
          fill limits rest (Slots.ofCapacity count) start stop = some (r, stop) ∧
          r.toList.length = count) ∧
      ∀ r a', Batch.read limits a bs = (.ok (some r), a') →
        1 ≤ r.consumed ∧ r.consumed ≤ bs.length ∧ r.batch.toList ≠ [] ∧
          ∀ request ∈ r.batch.toList, request.toList ≠ [] := by
  intro limits
  have hbulk := Limits.maxBulk_ofBuffer size
  have hl : limits.Addressable := Limits.addressable_of_le hbulk
  refine ⟨read_eq hl hbs a, ?_, ?_⟩
  · intro rest hrest count start stop hd hend
    have haddr : Bytes.Addressable rest := Nat.lt_of_le_of_lt hrest.length_le hbs
    obtain ⟨-, hstop, r, hfill, hwire, hused⟩ :=
      fill_eq hl haddr count (header_used_le hd) hend (r := Slots.ofCapacity count)
        (by rw [Slots.capacity_ofCapacity]; exact (Nat.zero_add count).le)
    refine ⟨hstop, r, hwire, hfill, ?_⟩
    rw [Slots.length_toList, hused]
    exact Nat.zero_add count
  · intro r a' hread
    obtain ⟨fs, hne, hwf, hbegins, htoList, hconsumed⟩ :=
      Batch.frames_of_read_some hbulk hbs hread
    rw [hconsumed, htoList]
    refine ⟨List.length_pos_iff.2 (framesBytes_ne_nil hne), hbegins.length_le,
      mt List.map_eq_nil_iff.1 hne, ?_⟩
    intro request hrequest
    obtain ⟨f, hf, rfl⟩ := List.mem_map.1 hrequest
    rw [toList_requestOf]
    exact f.args_ne_nil (hwf f hf)

/-- An array of two, and the beginning of a ping. -/
theorem read_safe_get :
    let a : Arena := ⟨1024, 0, true, by decide, by decide⟩
    let bs := Bytes.ascii "*2\r\n$3\r\nGET\r\n$1\r\nk\r\nPI"
    bs.Addressable ∧
      read (Limits.ofBuffer 512) a bs = some (Batch.read (Limits.ofBuffer 512) a bs) ∧
      ∃ r, fill (Limits.ofBuffer 512) bs (Slots.ofCapacity 2) 4 20 = some (r, 20) ∧
        r.toList.length = 2 := by
  intro a bs
  have hbs : bs.Addressable := by decide
  obtain ⟨hread, harray, -⟩ := read_safe 512 a hbs
  obtain ⟨-, r, -, hfill, hcount⟩ :=
    harray bs (List.suffix_refl bs) 2 4 20 (by decide) (by decide)
  exact ⟨hbs, hread, r, hfill, hcount⟩

end Checked
end RespStore
