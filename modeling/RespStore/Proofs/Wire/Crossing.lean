import RespStore.Proofs.Wire.Grammar

/-!
# RespStore.Proofs.Wire.Crossing

Lengths near the size of a word. A bulk string ends at the sum of where its payload starts, the
length that its header announces and two bytes more, and limits of any size may allow a length for
which that sum is no word (`EndsInWord`). Then positions come round to the start of the bytes, and a
bulk string that has not arrived is refused, or its bounds cross and the reader crashes
(`bulk_of_not_lt`).

`Crosses` says of which bytes the reader crashes, by the numbers in them and by the limits. It is
the only way to crash (`crosses_of_request`), and under limits that memory holds there is none
(`request_of_no_frame`).
-/

namespace RespStore

open Wire

variable {limits : Limits} {bs : Bytes} {length start : Nat}

namespace Wire

/-- The end of the bulk string that the header announces is a word, if there is a header and its
length is allowed. -/
def EndsInWord (limits : Limits) (bs : Bytes) : Prop :=
  ∀ length start, header bs = .found length start → length ≤ limits.maxBulk →
    start + length + 2 < Word.size

/-- There is one header, so there is one end. -/
theorem endsInWord_iff_of_header (hd : header bs = .found length start)
    (hallowed : length ≤ limits.maxBulk) :
    EndsInWord limits bs ↔ start + length + 2 < Word.size := by
  constructor
  · intro h
    exact h length start hd hallowed
  · intro hlt length' start' hd' _
    rw [hd, Scan.found.injEq] at hd'
    obtain ⟨rfl, rfl⟩ := hd'
    exact hlt

/-! ### The end of a header line -/

/-- In a header line, the one carriage return is that of its end. -/
theorem eq_of_cr_headerLine {mark : UInt8} {digits rest : Bytes} (hmark : mark ≠ Bytes.cr)
    (hdigits : Bytes.cr ∉ digits) {position : Nat}
    (hlt : position < (headerLine mark digits).length)
    (h : (headerLine mark digits ++ rest)[position]? = some Bytes.cr) :
    position = 1 + digits.length := by
  rw [List.getElem?_append_left hlt, headerLine] at h
  cases position with
  | zero => exact absurd (Option.some.inj h) hmark
  | succ position =>
    rw [length_headerLine] at hlt
    rw [List.getElem?_cons_succ] at h
    by_cases hin : position < digits.length
    · rw [List.getElem?_append_left hin] at h
      exact absurd (List.mem_of_getElem? h) hdigits
    · rw [List.getElem?_append_right (Nat.le_of_not_lt hin)] at h
      obtain hfirst | hsecond : position - digits.length = 0 ∨ position - digits.length = 1 := by
        omega
      · omega
      · rw [hsecond] at h
        cases h

/-- What the bytes have to be for a line to end at a position. -/
theorem getElem?_of_slice_eq_crlf {stop : Nat} (h : bs.slice stop (stop + 2) = Bytes.crlf) :
    bs[stop]? = some Bytes.cr := by
  have hfirst := congrArg (·[0]?) h
  simpa [Bytes.slice, Bytes.crlf] using hfirst

/-- A header line has its own end and no other. -/
theorem slice_headerLine_eq_crlf_iff {mark : UInt8} {digits : Bytes} (hmark : mark ≠ Bytes.cr)
    (hdigits : Bytes.cr ∉ digits) (rest : Bytes) {position : Nat}
    (hlt : position < (headerLine mark digits).length) :
    (headerLine mark digits ++ rest).slice position (position + 2) = Bytes.crlf ↔
      position = 1 + digits.length := by
  constructor
  · intro hcrlf
    exact eq_of_cr_headerLine hmark hdigits hlt (getElem?_of_slice_eq_crlf hcrlf)
  · intro hposition
    have hend := Bytes.slice_append (mark :: digits) Bytes.crlf rest
    rwa [List.length_cons, Nat.add_comm, ← hposition, ← List.append_assoc, List.cons_append,
      ← headerLine] at hend

/-! ### Positions that come round -/

/-- A number that is less than one word too large comes round once. -/
theorem wrap_of_le {n : Nat} (h : Word.size ≤ n) (hlt : n < 2 * Word.size) :
    Word.wrap n = n - Word.size := by
  rw [Word.wrap, Nat.mod_eq_sub_mod h, Nat.mod_eq_of_lt (by omega)]

/-- Reading a bulk string after its header, with the positions that come of it. -/
theorem bulk_of_positions {stop next : Nat} (hd : header bs = .found length start)
    (hallowed : length ≤ limits.maxBulk) (hstop : Word.wrap (start + length) = stop)
    (hnext : Word.wrap (stop + 2) = next) :
    bulk limits bs =
      if bs.length < next then .incomplete
      else if next < stop then .failed (.crossedBounds stop next)
      else if bs.slice stop next ≠ Bytes.crlf then .failed .unendedPayload
      else if stop < start then .failed (.crossedBounds start stop)
      else .found (bs.slice start stop) next := by
  subst hstop hnext
  rw [bulk, hd]
  simp only [if_neg (Nat.not_lt.2 hallowed), Bytes.length_crlf, Bytes.hasFewer_iff]
  rfl

/-- **Where the end is no word**, what becomes of the bulk string depends on how far its positions
come round. If only the end of its line does, or if the payload ends just before the end of the
header, bounds cross. Otherwise the header's own bytes are taken for the end of the line, and they
are not one; the last of them is missing if the greatest length is announced and nothing follows. -/
theorem bulk_of_not_lt (hbs : bs.Addressable) (hmark : bs.head? = some Encoding.bulkMark)
    (hd : header bs = .found length start) (hallowed : length ≤ limits.maxBulk)
    (hwraps : ¬start + length + 2 < Word.size) :
    bulk limits bs =
      if start + length < Word.size then
        .failed (.crossedBounds (start + length) (start + length + 2 - Word.size))
      else if length + 2 = Word.size then .failed (.crossedBounds start (start - 2))
      else if length + 1 = Word.size ∧ bs.length = start then .incomplete
      else .failed .unendedPayload := by
  obtain ⟨mark, digits, rest, hdenotes, hline, hstart⟩ := header_eq_found hd
  have hword : length < Word.size := hdenotes.fits
  have hsize : Word.size = 2 ^ 64 := by decide
  have hstart_le := header_used_le hd
  have hstart_eq : start = 1 + digits.length + 2 := hstart.trans (length_headerLine ..)
  unfold Bytes.Addressable at hbs
  by_cases hpart : start + length < Word.size
  · rw [bulk_of_positions hd hallowed (Word.wrap_of_lt hpart)
      (wrap_of_le (by omega) (by omega)), if_neg (by omega), if_pos (by omega), if_pos hpart]
  · -- the payload would end inside the header
    obtain ⟨stop, hstop⟩ : ∃ stop, start + length = stop + Word.size :=
      ⟨start + length - Word.size, by omega⟩
    have hwrap : Word.wrap (start + length) = stop := by
      rw [wrap_of_le (by omega) (by omega)]
      omega
    have hmark_ne : mark ≠ Bytes.cr := by
      rw [hline, headerLine, List.cons_append, List.head?_cons, Option.some.injEq] at hmark
      rw [hmark]
      decide
    have hcrlf : bs.slice stop (stop + 2) = Bytes.crlf ↔ length + 2 = Word.size := by
      rw [hline, slice_headerLine_eq_crlf_iff hmark_ne hdenotes.cr_notMem rest (by omega)]
      omega
    rw [bulk_of_positions hd hallowed hwrap (Word.wrap_of_lt (by omega)), if_neg hpart]
    by_cases hends : length + 2 = Word.size
    · rw [if_neg (by omega), if_neg (by omega), if_neg (not_not.2 (hcrlf.2 hends)),
        if_pos (by omega), if_pos hends]
      congr 2
      omega
    · rw [if_neg hends]
      by_cases hmissing : length + 1 = Word.size ∧ bs.length = start
      · rw [if_pos (by omega), if_pos hmissing]
      · rw [if_neg (by omega), if_neg (by omega), if_neg hmissing, if_pos (mt hcrlf.1 hends)]

/-! ### Bounds that cross -/

/-- The bounds of the bulk string at the start of the bytes cross, for a length that the limits
allow. The payload ends at a word and the line after it does not, or the end of the payload comes
round to the line break of the header. -/
def BoundsCross (limits : Limits) (bs : Bytes) : Prop :=
  bs.head? = some Encoding.bulkMark ∧ ∃ length start, header bs = .found length start ∧
    length ≤ limits.maxBulk ∧
      (start + length < Word.size ∧ Word.size ≤ start + length + 2 ∨ length + 2 = Word.size)

/-- The reader crashes on the first request of the bytes: on a bulk string, or on an array that the
limits allow when it comes to such an element. -/
inductive Crosses (limits : Limits) : Bytes → Prop
  | bulk {bs : Bytes} (h : BoundsCross limits bs) : Crosses limits bs
  | array {digits : Bytes} {count : Nat} {items : List BulkFrame} {rest : Bytes}
      (hdigits : Decimal.Denotes digits count) (hmax : count ≤ limits.maxArgs)
      (hmore : items.length < count) (hitems : ∀ item ∈ items, item.WellFormed limits)
      (hrest : BoundsCross limits rest) :
      Crosses limits (headerLine Encoding.arrayMark digits ++ (itemsBytes items ++ rest))

theorem header_failed_isCrash {error : FrameError} (h : header bs = .failed error) :
    error.isCrash = false := by
  unfold header at h
  dsimp only at h
  repeat' split at h
  all_goals cases h
  all_goals rfl

theorem inline_failed_isCrash {error : FrameError} (h : inline bs = .failed error) :
    error.isCrash = false := by
  unfold inline at h
  cases bs with
  | nil => cases h
  | cons b tail =>
    dsimp only at h
    split at h
    · cases h
      split <;> rfl
    · split at h <;> cases h

/-- **Where bounds cross, the reader of bulk strings crashes.** -/
theorem BoundsCross.bulk (h : BoundsCross limits bs) (hbs : bs.Addressable) :
    ∃ error : FrameError, error.isCrash = true ∧ Wire.bulk limits bs = .failed error := by
  obtain ⟨hmark, length, start, hd, hallowed, hcross⟩ := h
  rw [bulk_of_not_lt hbs hmark hd hallowed (by omega)]
  rcases hcross with ⟨hpart, -⟩ | hends
  · exact ⟨_, rfl, if_pos hpart⟩
  · have hstart := header_used_pos hd
    have hline : 2 ≤ start := by
      obtain ⟨_, _, _, -, -, rfl⟩ := header_eq_found hd
      rw [length_headerLine]
      omega
    exact ⟨_, rfl, by rw [if_neg (by omega), if_pos hends]⟩

/-- It crashes nowhere else. -/
theorem boundsCross_of_bulk (hbs : bs.Addressable) (hmark : bs.head? = some Encoding.bulkMark)
    {error : FrameError} (h : Wire.bulk limits bs = .failed error) (hcrash : error.isCrash = true) :
    BoundsCross limits bs := by
  cases hd : header bs with
  | incomplete =>
    rw [Wire.bulk, hd] at h
    cases h
  | failed error' =>
    rw [Wire.bulk, hd] at h
    cases h
    rw [header_failed_isCrash hd] at hcrash
    cases hcrash
  | found length start =>
    by_cases hallowed : length ≤ limits.maxBulk
    · refine ⟨hmark, length, start, hd, hallowed, ?_⟩
      by_cases hlt : start + length + 2 < Word.size
      · rw [bulk_of_header hd hlt, if_neg (Nat.not_lt.2 hallowed)] at h
        repeat' split at h
        all_goals cases h
        cases hcrash
      · rw [bulk_of_not_lt hbs hmark hd hallowed hlt] at h
        repeat' split at h
        all_goals cases h
        · exact .inl ⟨by assumption, Nat.le_of_not_lt hlt⟩
        · exact .inr (by assumption)
        · cases hcrash
    · rw [Wire.bulk, hd] at h
      dsimp only at h
      rw [if_pos (Nat.lt_of_not_le hallowed)] at h
      cases h
      cases hcrash

/-- Looking through elements crashes at the first whose bounds cross. -/
theorem elementsEnd_of_boundsCross {items : List BulkFrame}
    (hitems : ∀ item ∈ items, item.WellFormed limits) {rest : Bytes}
    (hrest : BoundsCross limits rest) (hbs : Bytes.Addressable (itemsBytes items ++ rest))
    {count : Nat} (hmore : items.length < count) (position : Nat) :
    ∃ error : FrameError, error.isCrash = true ∧
      elementsEnd limits count (itemsBytes items ++ rest) position = .failed error := by
  obtain ⟨left, rfl⟩ := Nat.exists_eq_add_of_lt hmore
  obtain ⟨error, hcrash, hread⟩ := hrest.bulk hbs.right
  refine ⟨error, hcrash, ?_⟩
  rw [Nat.add_assoc, elementsEnd_append hitems hbs]
  cases rest with
  | nil => cases hrest.1
  | cons b tail =>
    obtain rfl := Option.some.inj hrest.1
    rw [elementsEnd, if_neg (not_not.2 rfl), hread]

/-- It crashes nowhere else. -/
theorem boundsCross_of_elementsEnd {count : Nat} (hbs : bs.Addressable) {position : Nat}
    {error : FrameError} (h : elementsEnd limits count bs position = .failed error)
    (hcrash : error.isCrash = true) :
    ∃ (items : List BulkFrame) (rest : Bytes), bs = itemsBytes items ++ rest ∧
      items.length < count ∧ (∀ item ∈ items, item.WellFormed limits) ∧
      BoundsCross limits rest := by
  induction count generalizing bs position with
  | zero => cases h
  | succ count ih =>
    cases bs with
    | nil => cases h
    | cons b tail =>
      rw [elementsEnd] at h
      split at h
      · cases h
        cases hcrash
      · next hmark =>
        rw [not_not] at hmark
        subst hmark
        split at h
        · next arg used hread =>
          obtain ⟨item, hitem, -, rfl, rest, hrest⟩ := BulkFrame.of_read hbs hread
          rw [hrest] at hbs h
          rw [List.drop_left] at h
          obtain ⟨items, rest', rfl, hless, hitems, hcross⟩ := ih hbs.right h
          refine ⟨item :: items, rest', ?_, Nat.succ_lt_succ hless,
            List.forall_mem_cons.2 ⟨hitem, hitems⟩, hcross⟩
          rw [hrest, itemsBytes_cons, List.append_assoc]
        · cases h
        · next hread =>
          cases h
          exact ⟨[], _, rfl, Nat.succ_pos _, by simp, boundsCross_of_bulk hbs rfl hread hcrash⟩

/-! ### Requests -/

/-- The mark of a bulk string tells how to read it. -/
theorem request_of_bulkMark (hmark : bs.head? = some Encoding.bulkMark) (a : Arena) :
    Wire.request limits a bs = single a (Wire.bulk limits bs) := by
  cases bs with
  | nil => cases hmark
  | cons b tail =>
    obtain rfl := Option.some.inj hmark
    rw [Wire.request, if_neg (by decide), if_pos rfl]

/-- **The reader crashes on what crosses**, whatever the arena. -/
theorem Crosses.request (h : Crosses limits bs) (hbs : bs.Addressable) :
    ∃ error : FrameError, error.isCrash = true ∧
      ∀ a, Wire.request limits a bs = (.failed (.frame error), a) := by
  cases h with
  | bulk h =>
    obtain ⟨error, hcrash, hread⟩ := h.bulk hbs
    refine ⟨error, hcrash, fun a => ?_⟩
    rw [request_of_bulkMark h.1, hread]
    rfl
  | @array digits count items rest hdigits hmax hmore hitems hrest =>
    obtain ⟨error, hcrash, hend⟩ := elementsEnd_of_boundsCross hitems hrest hbs.right hmore
      (headerLine Encoding.arrayMark digits).length
    refine ⟨error, hcrash, fun a => ?_⟩
    have hheader := header_headerLine hdigits Encoding.arrayMark (itemsBytes items ++ rest)
    have harray : Wire.request limits a (headerLine Encoding.arrayMark digits ++
        (itemsBytes items ++ rest)) = Wire.array limits a _ := rfl
    rw [harray, Wire.array, hheader]
    dsimp only
    rw [if_neg (Nat.ne_of_gt (Nat.zero_lt_of_lt hmore)), if_neg (Nat.not_lt.2 hmax),
      List.drop_left, hend]

/-- **It crashes on nothing else.** -/
theorem crosses_of_request (hbs : bs.Addressable) {a a' : Arena} {error : FrameError}
    (h : Wire.request limits a bs = (.failed (.frame error), a'))
    (hcrash : error.isCrash = true) : Crosses limits bs := by
  cases bs with
  | nil => cases h
  | cons b tail =>
    simp only [Wire.request] at h
    split at h
    · next hmark =>
      subst hmark
      simp only [Wire.array] at h
      cases hd : header (Encoding.arrayMark :: tail) with
      | incomplete =>
        rw [hd] at h
        cases h
      | failed error' =>
        rw [hd] at h
        cases h
        rw [header_failed_isCrash hd] at hcrash
        cases hcrash
      | found count start =>
        obtain ⟨mark, digits, rest, hdigits, hrest, rfl⟩ := header_eq_found hd
        obtain ⟨rfl, -⟩ := List.cons.inj hrest
        rw [hd] at h
        dsimp only at h
        split at h
        · cases h
          cases hcrash
        · split at h
          · cases h
            cases hcrash
          · next hmax =>
            rw [hrest] at hbs h ⊢
            rw [List.drop_left] at h
            split at h
            · cases h
            · next hend =>
              cases h
              obtain ⟨items, rest', rfl, hmore, hitems, hcross⟩ :=
                boundsCross_of_elementsEnd hbs.right hend hcrash
              exact .array hdigits (Nat.le_of_not_lt hmax) hmore hitems hcross
            · next stop hend =>
              -- what was looked through once is there the second time
              obtain ⟨items, rfl, hitems, rfl, rest', rfl⟩ := items_of_elementsEnd hbs.right hend
              split at h
              · rw [fill_items hitems hbs.right] at h
                cases h
              · cases h
    · split at h
      · next hmark =>
        subst hmark
        cases hread : Wire.bulk limits (Encoding.bulkMark :: tail) with
        | incomplete =>
          rw [hread] at h
          cases h
        | failed error' =>
          rw [hread] at h
          cases h
          exact .bulk (boundsCross_of_bulk hbs rfl hread hcrash)
        | found arg used =>
          rw [hread, single] at h
          split at h <;> cases h
      · -- a word on a line of its own has no bounds
        cases hread : inline (b :: tail) with
        | incomplete =>
          rw [hread] at h
          cases h
        | failed error' =>
          rw [hread] at h
          cases h
          rw [inline_failed_isCrash hread] at hcrash
          cases hcrash
        | found arg used =>
          rw [hread, single] at h
          split at h <;> cases h

/-- Memory holds what the limits allow, so no bounds cross. -/
theorem not_crosses_of_addressable (hl : limits.Addressable) (hbs : bs.Addressable) :
    ¬Crosses limits bs := by
  have hnone {bs : Bytes} (hbs : bs.Addressable) : ¬BoundsCross limits bs := by
    rintro ⟨-, length, start, hd, hallowed, hcross⟩
    have hstart := header_used_le hd
    have hsize : Word.size = 2 ^ 64 := by decide
    unfold Limits.Addressable at hl
    unfold Bytes.Addressable at hbs
    omega
  intro h
  cases h with
  | bulk h => exact hnone hbs h
  | array _ _ _ _ hrest => exact hnone hbs.right.right hrest

/-- So the reader does not crash. -/
theorem request_failed_isCrash (hl : limits.Addressable) (hbs : bs.Addressable) {a a' : Arena}
    {error : ParseError} (h : Wire.request limits a bs = (.failed error, a')) :
    error.isCrash = false := by
  cases error with
  | arena error => rfl
  | frame error =>
    exact Bool.eq_false_iff.2 fun hcrash =>
      not_crosses_of_addressable hl hbs (crosses_of_request hbs h hcrash)

/-- Bytes that do not begin with a frame are no request, and the reader crashes on them only if they
cross. -/
theorem request_crosses_cases (hbs : bs.Addressable)
    (h : ∀ f : Frame, f.WellFormed limits → ¬f.bytes <+: bs) :
    ((∀ a, Wire.request limits a bs = (.incomplete, a)) ∧ ¬Crosses limits bs) ∨
      ∃ error : FrameError, (error.isCrash = true ↔ Crosses limits bs) ∧
        ∀ a, Wire.request limits a bs = (.failed (.frame error), a) := by
  let any : Arena := ⟨Arena.minCapacity, 0, true, by decide, Nat.zero_le _⟩
  rcases request_cases_of_no_frame hbs h with hwaits | ⟨error, hfails⟩
  · refine .inl ⟨hwaits, fun hcrosses => ?_⟩
    obtain ⟨_, -, hread⟩ := hcrosses.request hbs
    cases (hwaits any).symm.trans (hread any)
  · refine .inr ⟨error, ⟨crosses_of_request hbs (hfails any), fun hcrosses => ?_⟩, hfails⟩
    obtain ⟨_, hcrash, hread⟩ := hcrosses.request hbs
    cases (hfails any).symm.trans (hread any)
    exact hcrash

/-- **Bytes that do not begin with a frame are no request**, and looking at them costs nothing. The
arena has no part in what they are taken for. -/
theorem request_of_no_frame (hl : limits.Addressable) (hbs : bs.Addressable)
    (h : ∀ f : Frame, f.WellFormed limits → ¬f.bytes <+: bs) :
    (∀ a, Wire.request limits a bs = (.incomplete, a)) ∨
      ∃ error : FrameError, error.isCrash = false ∧
        ∀ a, Wire.request limits a bs = (.failed (.frame error), a) := by
  refine (request_cases_of_no_frame hbs h).imp_right ?_
  rintro ⟨error, hfails⟩
  let any : Arena := ⟨Arena.minCapacity, 0, true, by decide, Nat.zero_le _⟩
  exact ⟨error, request_failed_isCrash hl hbs (hfails any), hfails⟩

end Wire
end RespStore
