import Mathlib.Data.FinEnum
import Mathlib.Data.List.Basic
import RespStore.Proofs.Wire.Header
import RespStore.Wire.Batch

/-!
# RespStore.Proofs.Wire.Grammar

The requests as clients write them. A `Frame` is the concrete syntax of one request: its form, the
digits that the client chose for every number, and the payloads. `Frame.bytes` is what stands on
the wire and `Frame.args` is the request that it denotes.

The reader is tied to this grammar in both directions. `request_bytes` says what becomes of a
frame, whatever follows it; `request_cases_of_no_frame` says that bytes that do not begin with a
frame leave the arena alone and are no request.

Positions are words in the reader and numbers here, so the bytes are taken to be `Addressable`:
memory holds no more. What is found there ends at a word (`lt_of_bulk_found`), and under limits that
memory holds the reader of bulk strings comes down to `bulk_eq`.
-/

namespace RespStore

/-- The bytes fit in memory, which is half of what a word can count. -/
def Bytes.Addressable (bs : Bytes) : Prop := bs.length < 2 ^ 63

instance (bs : Bytes) : Decidable bs.Addressable := inferInstanceAs (Decidable (_ < _))

theorem Bytes.Addressable.right {front back : Bytes} (h : Bytes.Addressable (front ++ back)) :
    Bytes.Addressable back := by
  unfold Bytes.Addressable at *
  rw [List.length_append] at h
  omega

theorem Bytes.Addressable.left {front back : Bytes} (h : Bytes.Addressable (front ++ back)) :
    Bytes.Addressable front := by
  unfold Bytes.Addressable at *
  rw [List.length_append] at h
  omega

/-- The first byte has arrived as soon as any has. -/
theorem Bytes.head?_of_part {part whole : Bytes} (hne : part ≠ []) (h : part <+: whole) :
    part.head? = whole.head? := by
  obtain ⟨rest, rfl⟩ := h
  obtain ⟨b, hb⟩ := Option.isSome_iff_exists.1 (List.isSome_head?.2 hne)
  rw [List.head?_append, hb, Option.some_or]

/-- The part of a row that stands after the first piece is the second piece. -/
theorem Bytes.slice_append (front middle back : Bytes) :
    Bytes.slice (front ++ (middle ++ back)) front.length (front.length + middle.length) =
      middle := by
  rw [Bytes.slice, List.drop_left, Nat.add_sub_cancel_left, List.take_left]

namespace Wire

/-! ### Syntax -/

/-- A bulk string as it is written: the digits of its length, and its payload. -/
structure BulkFrame where
  digits : Bytes
  payload : Bytes
  deriving Repr, DecidableEq

namespace BulkFrame

/-- The bulk string on the wire. -/
def bytes (f : BulkFrame) : Bytes :=
  headerLine Encoding.bulkMark f.digits ++ (f.payload ++ Bytes.crlf)

/-- The digits give the length of the payload, and it is not too long. -/
structure WellFormed (limits : Limits) (f : BulkFrame) : Prop where
  announced : Decimal.Denotes f.digits f.payload.length
  allowed : f.payload.length ≤ limits.maxBulk

instance (limits : Limits) (f : BulkFrame) : Decidable (f.WellFormed limits) :=
  decidable_of_iff (Decimal.Denotes f.digits f.payload.length ∧ f.payload.length ≤ limits.maxBulk)
    ⟨fun h => ⟨h.1, h.2⟩, fun h => ⟨h.1, h.2⟩⟩

@[simp] theorem length_bytes (f : BulkFrame) :
    f.bytes.length = f.digits.length + f.payload.length + 5 := by
  simp only [bytes, List.length_append, length_headerLine, Bytes.length_crlf]
  omega

end BulkFrame

/-- Bulk strings one after another on the wire. -/
def itemsBytes (items : List BulkFrame) : Bytes := items.flatMap BulkFrame.bytes

@[simp] theorem itemsBytes_nil : itemsBytes [] = [] := rfl

@[simp] theorem itemsBytes_cons (item : BulkFrame) (items : List BulkFrame) :
    itemsBytes (item :: items) = item.bytes ++ itemsBytes items := List.flatMap_cons

/-- The word that the inline form of a request may hold. -/
def pingWord : Bytes := Bytes.ascii "PING"

/-- A request as it is written. -/
inductive Frame
  /-- Bulk strings after a line with their number. -/
  | array (digits : Bytes) (items : List BulkFrame)
  /-- A bulk string by itself. -/
  | bulk (item : BulkFrame)
  /-- A word on a line of its own. -/
  | ping (word : Bytes)
  deriving Repr, DecidableEq

namespace Frame

/-- The request on the wire. -/
def bytes : Frame → Bytes
  | array digits items =>
    headerLine Encoding.arrayMark digits ++ itemsBytes items
  | bulk item => item.bytes
  | ping word => word ++ Bytes.crlf

/-- The arguments of the request. -/
def args : Frame → List Bytes
  | array _ items => items.map BulkFrame.payload
  | bulk item => [item.payload]
  | ping word => [word]

/-- The digits of every number in the request. -/
def numerals : Frame → List Bytes
  | array digits items => digits :: items.map BulkFrame.digits
  | bulk item => [item.digits]
  | ping _ => []

/-- The request is one that the limits allow. -/
def WellFormed (limits : Limits) : Frame → Prop
  | array digits items =>
    Decimal.Denotes digits items.length ∧ items ≠ [] ∧ items.length ≤ limits.maxArgs ∧
      ∀ item ∈ items, item.WellFormed limits
  | bulk item => item.WellFormed limits
  | ping word => Bytes.sameWord word pingWord = true

instance (limits : Limits) : (f : Frame) → Decidable (f.WellFormed limits)
  | array _ _ => inferInstanceAs (Decidable (_ ∧ _))
  | bulk item => inferInstanceAs (Decidable (item.WellFormed limits))
  | ping _ => inferInstanceAs (Decidable (_ = _))

/-- A request has a name. -/
theorem args_ne_nil {limits : Limits} {f : Frame} (h : f.WellFormed limits) : f.args ≠ [] := by
  cases f with
  | array digits items => simpa [args] using h.2.1
  | bulk item => exact List.cons_ne_nil _ _
  | ping word => exact List.cons_ne_nil _ _

theorem bytes_ne_nil (f : Frame) : f.bytes ≠ [] := by
  cases f with
  | array digits items => exact List.cons_ne_nil _ _
  | bulk item => exact List.cons_ne_nil _ _
  | ping word => simp [bytes, Bytes.crlf]

/-- Every argument of a request takes at least six bytes. -/
theorem six_mul_length_args_le {limits : Limits} {f : Frame} (h : f.WellFormed limits) :
    6 * f.args.length ≤ f.bytes.length := by
  have hitem {item : BulkFrame} (hi : item.WellFormed limits) : 6 ≤ item.bytes.length := by
    have := List.length_pos_iff.2 hi.announced.nonempty
    rw [BulkFrame.length_bytes]
    omega
  cases f with
  | array digits items =>
    have hitems : ∀ {l : List BulkFrame}, (∀ item ∈ l, item.WellFormed limits) →
        6 * l.length ≤ (itemsBytes l).length := by
      intro l hl
      induction l with
      | nil => exact Nat.zero_le _
      | cons item l ih =>
        have hhead := hitem (hl item (List.mem_cons_self ..))
        have htail := ih fun i hi => hl i (List.mem_cons_of_mem _ hi)
        rw [itemsBytes_cons, List.length_append, List.length_cons]
        omega
    have := hitems h.2.2.2
    simp only [args, bytes, List.length_map, List.length_append]
    omega
  | bulk item => simpa [args, bytes] using hitem h
  | ping word =>
    have hlen : word.length = 4 := Bytes.length_eq_of_sameWord h
    simp [args, bytes, hlen]

end Frame

/-! ### Bulk strings

The reader's words are numbers again where the payload ends at a position that is a word. It does
if the payload is there, and for any announced payload if the limits are `Addressable`. -/

/-- Memory holds every payload that the limits allow, with the end of its line. -/
def Limits.Addressable (limits : Limits) : Prop := limits.maxBulk + 2 < 2 ^ 63

variable {limits : Limits}

theorem Limits.addressable_of_le (hl : limits.maxBulk ≤ Limits.standard.maxBulk) :
    limits.Addressable := by
  have hmax : Limits.standard.maxBulk = 2 ^ 29 := rfl
  unfold Limits.Addressable
  omega

theorem Limits.maxBulk_ofBuffer (size : Nat) :
    (ofBuffer size).maxBulk ≤ standard.maxBulk := Nat.le_refl _

/-- A request that fits a buffer has no more arguments than the buffer could hold. The limits for
the buffer allow so many, unless they are too many for any buffer. -/
theorem Frame.length_args_le_of_fits {size : Nat} {f : Frame} (hf : f.WellFormed limits)
    (hfits : f.bytes.length ≤ size) :
    f.args.length ≤ size / Limits.minElement ∧
      (f.args.length ≤ Limits.standard.maxArgs →
        f.args.length ≤ (Limits.ofBuffer size).maxArgs) := by
  have hargs := f.six_mul_length_args_le hf
  have hquotient : f.args.length ≤ size / Limits.minElement := by
    rw [Limits.minElement, Nat.le_div_iff_mul_le (by decide)]
    omega
  exact ⟨hquotient, fun hmax => (le_min hmax hquotient).trans (Nat.le_max_right ..)⟩

/-- Reading a bulk string after its header, with positions that are numbers. -/
theorem bulk_of_header {bs : Bytes} {length start : Nat} (hd : header bs = .found length start)
    (hfits : start + length + 2 < Word.size) :
    bulk limits bs =
      if limits.maxBulk < length then .failed (.longPayload length limits.maxBulk)
      else if bs.length < start + length + 2 then .incomplete
      else if bs.slice (start + length) (start + length + 2) ≠ Bytes.crlf then
        .failed .unendedPayload
      else .found (bs.slice start (start + length)) (start + length + 2) := by
  have hstop : Word.wrap (start + length) = start + length := Word.wrap_of_lt (by omega)
  have hnext : Word.wrap (start + length + 2) = start + length + 2 := Word.wrap_of_lt hfits
  have hcross : ¬start + length + 2 < start + length := by omega
  have hback : ¬start + length < start := by omega
  rw [bulk, hd]
  simp only [hstop, Bytes.length_crlf, hnext, Bytes.hasFewer_iff, if_neg hcross, if_neg hback]

/-- A bulk string is found only where its end is a word. -/
theorem lt_of_bulk_found {bs arg : Bytes} {length start used : Nat} (hbs : bs.Addressable)
    (hd : header bs = .found length start) (h : bulk limits bs = .found arg used) :
    start + length + 2 < Word.size := by
  obtain ⟨_, _, _, hdenotes, -, -⟩ := header_eq_found hd
  have hword : length < Word.size := hdenotes.fits
  have hstart := header_used_le hd
  have hsize : Word.size = 2 ^ 64 := by decide
  unfold Bytes.Addressable at hbs
  rw [bulk, hd] at h
  dsimp only at h
  split at h
  · cases h
  · split at h
    · cases h
    · split at h
      · cases h
      · next hnext =>
        split at h
        · cases h
        · split at h
          · cases h
          · next hstop =>
            -- a sum beyond a word comes round to a position before the one that it is to follow
            simp only [Word.wrap, hsize, Bytes.length_crlf] at hword hnext hstop ⊢
            omega

/-- Reading a bulk string, with positions that are numbers. -/
theorem bulk_eq {bs : Bytes} (hl : limits.Addressable) (hbs : bs.Addressable) :
    bulk limits bs =
      match header bs with
      | .incomplete => .incomplete
      | .failed error => .failed error
      | .found length start =>
        if limits.maxBulk < length then .failed (.longPayload length limits.maxBulk)
        else if bs.length < start + length + 2 then .incomplete
        else if bs.slice (start + length) (start + length + 2) ≠ Bytes.crlf then
          .failed .unendedPayload
        else .found (bs.slice start (start + length)) (start + length + 2) := by
  cases hd : header bs with
  | incomplete => rw [bulk, hd]
  | failed error => rw [bulk, hd]
  | found length start =>
    by_cases hlong : limits.maxBulk < length
    · rw [bulk, hd]
      dsimp only
      rw [if_pos hlong, if_pos hlong]
    · have hstart := header_used_le hd
      unfold Limits.Addressable at hl
      unfold Bytes.Addressable at hbs
      exact bulk_of_header hd (by unfold Word.size; omega)

namespace BulkFrame

variable {f : BulkFrame}

/-- The bulk string on the wire, with what follows it, piece by piece. -/
theorem bytes_append (f : BulkFrame) (rest : Bytes) :
    f.bytes ++ rest =
      headerLine Encoding.bulkMark f.digits ++ (f.payload ++ (Bytes.crlf ++ rest)) := by
  simp only [bytes, List.append_assoc]

/-- **A bulk string is read back**, whatever follows it. -/
theorem read_bytes (hf : f.WellFormed limits) {rest : Bytes}
    (hbs : Bytes.Addressable (f.bytes ++ rest)) :
    Wire.bulk limits (f.bytes ++ rest) = .found f.payload f.bytes.length := by
  have hheader := header_headerLine hf.announced Encoding.bulkMark
    (f.payload ++ (Bytes.crlf ++ rest))
  have hpayload := Bytes.slice_append (headerLine Encoding.bulkMark f.digits) f.payload
    (Bytes.crlf ++ rest)
  have hend := Bytes.slice_append (headerLine Encoding.bulkMark f.digits ++ f.payload)
    Bytes.crlf rest
  rw [List.append_assoc, List.length_append, Bytes.length_crlf] at hend
  have hlen := congrArg List.length (bytes_append f rest)
  simp only [List.length_append, Bytes.length_crlf] at hlen
  unfold Bytes.Addressable at hbs
  rw [List.length_append] at hbs
  rw [bytes_append, bulk_of_header hheader (by unfold Word.size; omega),
    if_neg (Nat.not_lt.2 hf.allowed), if_neg (by
      simp only [List.length_append, Bytes.length_crlf]
      omega),
    if_neg (by rw [hend]; exact not_not.2 rfl), hpayload]
  congr 1
  omega

/-- **Where reading finds a bulk string, there is one.** -/
theorem of_read {bs arg : Bytes} {used : Nat}
    (hbs : Bytes.Addressable (Encoding.bulkMark :: bs))
    (h : Wire.bulk limits (Encoding.bulkMark :: bs) = .found arg used) :
    ∃ f : BulkFrame, f.WellFormed limits ∧ f.payload = arg ∧ f.bytes.length = used ∧
      ∃ rest, Encoding.bulkMark :: bs = f.bytes ++ rest := by
  cases hd : header (Encoding.bulkMark :: bs) with
  | incomplete => rw [Wire.bulk, hd] at h; cases h
  | failed error => rw [Wire.bulk, hd] at h; cases h
  | found length start =>
    rw [bulk_of_header hd (lt_of_bulk_found hbs hd h)] at h
    obtain ⟨mark, digits, tail, hdigits, htail, rfl⟩ := header_eq_found hd
    obtain ⟨rfl, -⟩ := List.cons.inj htail
    rw [htail] at h
    repeat' split at h
    all_goals cases h
    next hlong hfewer hcrlf =>
      rw [List.length_append] at hfewer
      -- the payload and the end of the line are the two pieces that the reader looked at
      have hslice (a b : Nat) (ha : (headerLine Encoding.bulkMark digits).length ≤ a) :
          Bytes.slice (headerLine Encoding.bulkMark digits ++ tail) a b =
            (tail.drop (a - (headerLine Encoding.bulkMark digits).length)).take (b - a) := by
        rw [Bytes.slice, List.drop_append, List.drop_eq_nil_of_le ha, List.nil_append]
      rw [not_not, hslice _ _ (Nat.le_add_right ..), Nat.add_sub_cancel_left,
        Nat.add_sub_cancel_left] at hcrlf
      have hpayload : (tail.take length).length = length := by
        rw [List.length_take]
        omega
      refine ⟨⟨digits, tail.take length⟩, ⟨?_, ?_⟩, ?_, ?_, (tail.drop length).drop 2, ?_⟩
      · rw [hpayload]
        exact hdigits
      · rw [hpayload]
        exact Nat.le_of_not_lt hlong
      · rw [hslice _ _ le_rfl, Nat.sub_self, Nat.add_sub_cancel_left, List.drop_zero]
      · rw [length_bytes, length_headerLine]
        dsimp only
        omega
      · rw [htail, bytes_append, ← hcrlf, List.take_append_drop, List.take_append_drop]

end BulkFrame

/-! ### The elements of an array -/

/-- Looking through elements takes one past the first of them. -/
theorem elementsEnd_cons {item : BulkFrame} (hitem : item.WellFormed limits) {rest : Bytes}
    (hbs : Bytes.Addressable (item.bytes ++ rest)) (count position : Nat) :
    elementsEnd limits (count + 1) (item.bytes ++ rest) position =
      elementsEnd limits count rest (position + item.bytes.length) := by
  have hread := item.read_bytes hitem hbs
  obtain ⟨tail, htail⟩ : ∃ tail, item.bytes ++ rest = Encoding.bulkMark :: tail := ⟨_, rfl⟩
  rw [htail] at hread ⊢
  rw [elementsEnd, if_neg (not_not.2 rfl), hread]
  dsimp only
  rw [← htail, List.drop_left]

/-- Looking through some elements takes one past them. -/
theorem elementsEnd_append {items : List BulkFrame}
    (hitems : ∀ item ∈ items, item.WellFormed limits) {rest : Bytes}
    (hbs : Bytes.Addressable (itemsBytes items ++ rest)) (count position : Nat) :
    elementsEnd limits (items.length + count) (itemsBytes items ++ rest) position =
      elementsEnd limits count rest (position + (itemsBytes items).length) := by
  induction items generalizing position with
  | nil => rw [List.length_nil, Nat.zero_add]; rfl
  | cons item items ih =>
    rw [itemsBytes_cons, List.append_assoc] at hbs ⊢
    rw [List.length_cons, Nat.add_right_comm,
      elementsEnd_cons (hitems item (List.mem_cons_self ..)) hbs,
      ih (fun i hi => hitems i (List.mem_cons_of_mem _ hi)) hbs.right, List.length_append,
      Nat.add_assoc]

/-- **Where the end of an array is found, its elements are there.** -/
theorem items_of_elementsEnd {count : Nat} {bs : Bytes}
    (hbs : bs.Addressable) {position stop : Nat}
    (h : elementsEnd limits count bs position = .found () stop) :
    ∃ items : List BulkFrame, items.length = count ∧ (∀ item ∈ items, item.WellFormed limits) ∧
      stop = position + (itemsBytes items).length ∧ ∃ rest, bs = itemsBytes items ++ rest := by
  induction count generalizing bs position with
  | zero =>
    cases h
    exact ⟨[], rfl, fun _ hi => absurd hi List.not_mem_nil, rfl, bs, rfl⟩
  | succ count ih =>
    cases bs with
    | nil => cases h
    | cons b bs =>
      rw [elementsEnd] at h
      split at h
      · cases h
      · next hmark =>
        rw [not_not] at hmark
        subst hmark
        split at h
        · next arg used hread =>
          obtain ⟨item, hitem, -, rfl, tail, htail⟩ := BulkFrame.of_read hbs hread
          rw [htail] at hbs h
          rw [List.drop_left] at h
          obtain ⟨items, rfl, hitems, rfl, rest, rfl⟩ := ih hbs.right h
          refine ⟨item :: items, rfl, List.forall_mem_cons.2 ⟨hitem, hitems⟩, ?_, rest, ?_⟩
          · rw [itemsBytes_cons, List.length_append, Nat.add_assoc]
          · rw [htail, itemsBytes_cons, List.append_assoc]
        · cases h
        · cases h

/-- The second pass over an array puts the payloads into the request. -/
theorem fill_items {items : List BulkFrame}
    (hitems : ∀ item ∈ items, item.WellFormed limits) {rest : Bytes}
    (hbs : Bytes.Addressable (itemsBytes items ++ rest)) (r : Request) (position : Nat) :
    fill limits r (itemsBytes items ++ rest) position (position + (itemsBytes items).length) =
      .found ((items.map BulkFrame.payload).foldl Slots.add r)
        (position + (itemsBytes items).length) := by
  induction items generalizing r position with
  | nil => rw [fill, if_neg (by simp)]; rfl
  | cons item items ih =>
    rw [itemsBytes_cons, List.append_assoc] at hbs ⊢
    have hread := item.read_bytes (hitems item (List.mem_cons_self ..)) hbs
    have hrest := ih (fun i hi => hitems i (List.mem_cons_of_mem _ hi)) hbs.right
      (r.add item.payload) (position + item.bytes.length)
    rw [List.length_append, ← Nat.add_assoc, List.map_cons, List.foldl_cons, ← hrest, fill,
      if_pos (by rw [BulkFrame.length_bytes]; omega)]
    split
    · next arg used hfound =>
      rw [hread] at hfound
      cases hfound
      rw [List.drop_left]
    · next hfound => rw [hread] at hfound; cases hfound
    · next hfound => rw [hread] at hfound; cases hfound

/-! ### The inline ping -/

theorem inlinePing_eq : inlinePing = pingWord ++ Bytes.crlf := rfl

/-- Only the end of a line is the end of a line up to the case of letters. -/
theorem eq_crlf_of_map_lower {bs : Bytes} (h : bs.map Bytes.lower = Bytes.crlf.map Bytes.lower) :
    bs = Bytes.crlf := by
  have hcr : ∀ b : UInt8, Bytes.lower b = Bytes.lower Bytes.cr → b = Bytes.cr := by
    decide +kernel
  have hlf : ∀ b : UInt8, Bytes.lower b = Bytes.lower Bytes.lf → b = Bytes.lf := by
    decide +kernel
  have hlen : bs.length = 2 := by simpa [Bytes.crlf] using congrArg List.length h
  obtain ⟨a, b, rfl⟩ := List.length_eq_two.1 hlen
  obtain ⟨ha, hb⟩ := List.cons.inj h
  rw [hcr a ha, hlf b (List.cons.inj hb).1]
  rfl

/-- An inline ping opens with a letter, which no other form of a request does. -/
theorem head_of_sameWord_ping {b : UInt8} {word : Bytes}
    (h : Bytes.sameWord (b :: word) pingWord = true) :
    b ≠ Encoding.arrayMark ∧ b ≠ Encoding.bulkMark := by
  have hletter : ∀ b : UInt8, Bytes.lower b = Bytes.lower 80 →
      b ≠ Encoding.arrayMark ∧ b ≠ Encoding.bulkMark := by decide +kernel
  exact hletter b (List.cons.inj (eq_of_beq h)).1

/-- **The inline ping is read back**, whatever follows it. -/
theorem inline_ping {word : Bytes} (h : Bytes.sameWord word pingWord = true) (rest : Bytes) :
    inline (word ++ (Bytes.crlf ++ rest)) = .found word (word ++ Bytes.crlf).length := by
  have hlen : word.length = 4 := Bytes.length_eq_of_sameWord h
  have hsize : inlinePing.length = (word ++ Bytes.crlf).length := by
    rw [List.length_append, hlen]
    rfl
  have hsame : Bytes.sameWord (word ++ Bytes.crlf) inlinePing = true := by
    rw [Bytes.sameWord, inlinePing_eq, List.map_append, List.map_append, eq_of_beq h]
    exact beq_self_eq_true _
  have hword : (word ++ (Bytes.crlf ++ rest)).take 4 = word := hlen ▸ List.take_left
  obtain ⟨b, tail, htail⟩ : ∃ b tail, word ++ (Bytes.crlf ++ rest) = b :: tail := by
    cases word with
    | nil => cases hlen
    | cons b word => exact ⟨b, _, rfl⟩
  rw [htail] at hword
  simp only [inline, htail, hword, hsize]
  rw [← htail, ← List.append_assoc, List.take_left, ← hsize, List.take_length, hsame]
  simp [hsize]

/-- **Where reading finds an inline ping, there is one.** -/
theorem ping_of_inline {bs arg : Bytes} {used : Nat} (h : inline bs = .found arg used) :
    Bytes.sameWord arg pingWord = true ∧ used = (arg ++ Bytes.crlf).length ∧
      ∃ rest, bs = arg ++ (Bytes.crlf ++ rest) := by
  unfold inline at h
  cases bs with
  | nil => cases h
  | cons b tail =>
    dsimp only at h
    generalize b :: tail = bs at h
    split at h
    · cases h
    · next hsame =>
      split at h
      · cases h
      · next hfull =>
        cases h
        have hseen : (bs.take inlinePing.length).length = inlinePing.length := by
          have := List.length_take_le inlinePing.length bs
          omega
        have hlong : inlinePing.length ≤ bs.length := by
          rw [List.length_take] at hseen
          omega
        have hlen : (bs.take 4).length = 4 := by
          rw [List.length_take]
          exact Nat.min_eq_left (Nat.le_trans (by decide) hlong)
        rw [Bool.not_eq_true', Bool.not_eq_false, hseen, List.take_length] at hsame
        -- the word and the end of the line are compared apart
        have hsplit : bs.take (4 + 2) = bs.take 4 ++ (bs.drop 4).take 2 := List.take_add
        have hmap := eq_of_beq hsame
        rw [show inlinePing.length = 4 + 2 from rfl, hsplit, inlinePing_eq, List.map_append,
          List.map_append] at hmap
        obtain ⟨hword, hcrlf⟩ := List.append_inj hmap (by rw [List.length_map, hlen]; rfl)
        refine ⟨beq_iff_eq.2 hword, by rw [List.length_append, hlen]; rfl,
          (bs.drop 4).drop 2, ?_⟩
        rw [← eq_crlf_of_map_lower hcrlf, List.take_append_drop, List.take_append_drop]

/-- **An inline ping that was cut off is waited for.** -/
theorem inline_of_cut {word part : Bytes} (h : Bytes.sameWord word pingWord = true)
    (hcut : Bytes.IsCut part (word ++ Bytes.crlf)) : inline part = .incomplete := by
  have hlen : word.length = 4 := Bytes.length_eq_of_sameWord h
  obtain ⟨hpart, hlt⟩ := hcut
  have hsize : inlinePing.length = (word ++ Bytes.crlf).length := by
    rw [List.length_append, hlen]
    rfl
  have htake : part.take inlinePing.length = part := by
    rw [hsize]
    exact List.take_of_length_le hlt.le
  have hsame : Bytes.sameWord part (inlinePing.take part.length) = true := by
    rw [List.prefix_iff_eq_take.1 hpart, Bytes.sameWord, List.map_take, List.map_append,
      eq_of_beq h, ← List.map_append, ← inlinePing_eq, ← List.map_take, List.length_take,
      Nat.min_eq_left hlt.le]
    exact beq_self_eq_true _
  cases part with
  | nil => rfl
  | cons b tail =>
    simp only [inline, htake, hsame]
    rw [if_neg (by simp), if_pos (hsize ▸ hlt)]

/-! ### Requests -/

/-- The request that holds the given arguments and has room for no more. -/
def requestOf (args : List Bytes) : Request := args.foldl Slots.add (Slots.ofCapacity args.length)

@[simp] theorem toList_requestOf (args : List Bytes) : (requestOf args).toList = args := by
  rw [requestOf, Slots.toList_foldl_add, Slots.toList_ofCapacity, List.nil_append]
  rw [Slots.capacity_ofCapacity]
  exact (Nat.zero_add _).le

theorem map_toList_requestOf (fs : List Frame) :
    (fs.map fun f => requestOf f.args).map Slots.toList = fs.map Frame.args := by
  rw [List.map_map]
  exact List.map_congr_left fun f _ => toList_requestOf f.args

/-- A request of one argument takes one slot. -/
theorem single_found (a : Arena) (arg : Bytes) (used : Nat) :
    single a (.found arg used) =
      match a.allocate Request.argument 1 with
      | (.ok (), a) => (.found (requestOf [arg]) used, a)
      | (.error error, a) => (.failed (.arena error), a) := by
  rw [single, Request.reserve]
  cases a.allocate Request.argument 1 with
  | mk result a => cases result <;> rfl

/-- Reading a request in the form that a frame has. -/
def Frame.readLike (limits : Limits) (a : Arena) (bs : Bytes) :
    Frame → Scan ParseError Request × Arena
  | .array .. => Wire.array limits a bs
  | .bulk _ => single a (Wire.bulk limits bs)
  | .ping _ => single a (inline bs)

/-- The first byte of a frame tells how to read it. -/
theorem request_of_head {limits' : Limits} {f : Frame} (hf : f.WellFormed limits') {bs : Bytes}
    (h : bs.head? = f.bytes.head?) (a : Arena) : request limits a bs = f.readLike limits a bs := by
  cases bs with
  | nil => exact absurd (List.head?_eq_none_iff.1 h.symm) f.bytes_ne_nil
  | cons b tail =>
    cases f with
    | array digits items =>
      obtain rfl := Option.some.inj h
      rw [request, if_pos rfl]
      rfl
    | bulk item =>
      obtain rfl := Option.some.inj h
      rw [request, if_neg (by decide), if_pos rfl]
      rfl
    | ping word =>
      cases word with
      | nil => cases hf
      | cons c word =>
        obtain rfl := Option.some.inj h
        obtain ⟨harray, hbulk⟩ := head_of_sameWord_ping hf
        rw [request, if_neg harray, if_neg hbulk]
        rfl

/-- **A frame is read as the request that it denotes**, whatever follows it, if the arena has room
for the arguments; it is refused with the arena's error otherwise. -/
theorem request_bytes {f : Frame} (hf : f.WellFormed limits) {rest : Bytes}
    (hbs : Bytes.Addressable (f.bytes ++ rest)) (a : Arena) :
    request limits a (f.bytes ++ rest) =
      match a.allocate Request.argument f.args.length with
      | (.ok (), a) => (.found (requestOf f.args) f.bytes.length, a)
      | (.error error, a) => (.failed (.arena error), a) := by
  rw [request_of_head hf (Bytes.head?_of_part f.bytes_ne_nil (List.prefix_append ..)).symm]
  cases f with
  | array digits items =>
    obtain ⟨hdigits, hne, hmax, hitems⟩ := hf
    have hcount : items.length ≠ 0 := mt List.length_eq_zero_iff.1 hne
    have hsplit : (Frame.array digits items).bytes ++ rest =
        headerLine Encoding.arrayMark digits ++ (itemsBytes items ++ rest) := List.append_assoc ..
    rw [hsplit] at hbs ⊢
    have hend := elementsEnd_append hitems hbs.right 0
      (headerLine Encoding.arrayMark digits).length
    have hfill := fill_items hitems hbs.right (Slots.ofCapacity items.length)
      (headerLine Encoding.arrayMark digits).length
    rw [Frame.readLike, array, header_headerLine hdigits]
    dsimp only
    rw [if_neg hcount, if_neg (Nat.not_lt.2 hmax), List.drop_left,
      ← Nat.add_zero items.length, hend]
    dsimp only [elementsEnd, Nat.add_zero]
    rw [Request.reserve, Frame.args, List.length_map]
    cases a.allocate Request.argument items.length with
    | mk result a =>
      cases result with
      | ok =>
        dsimp only
        rw [hfill, Scan.request, requestOf, List.length_map, Frame.bytes, List.length_append]
      | error error => rfl
  | bulk item =>
    rw [Frame.readLike, Frame.bytes, item.read_bytes hf hbs]
    exact single_found ..
  | ping word =>
    rw [Frame.readLike, Frame.bytes, List.append_assoc, inline_ping hf]
    exact single_found ..

/-- **Bytes that do not begin with a frame are no request**, and looking at them costs nothing. The
arena has no part in what they are taken for. -/
theorem request_cases_of_no_frame {bs : Bytes} (hbs : bs.Addressable)
    (h : ∀ f : Frame, f.WellFormed limits → ¬f.bytes <+: bs) :
    (∀ a, request limits a bs = (.incomplete, a)) ∨
      ∃ error, ∀ a, request limits a bs = (.failed (.frame error), a) := by
  cases bs with
  | nil => exact .inl fun _ => rfl
  | cons b tail =>
    simp only [request]
    split
    · next hmark =>
      subst hmark
      simp only [array]
      cases hd : header (Encoding.arrayMark :: tail) with
      | incomplete => exact .inl fun _ => rfl
      | failed error => exact .inr ⟨error, fun _ => rfl⟩
      | found count start =>
        dsimp only
        split
        · exact .inr ⟨_, fun _ => rfl⟩
        · next hcount =>
          split
          · exact .inr ⟨_, fun _ => rfl⟩
          · next hmax =>
            obtain ⟨mark, digits, rest, hdigits, hrest, rfl⟩ := header_eq_found hd
            obtain ⟨rfl, -⟩ := List.cons.inj hrest
            rw [hrest] at hbs h ⊢
            rw [List.drop_left]
            cases hend : elementsEnd limits count rest (headerLine _ digits).length with
            | incomplete => exact .inl fun _ => rfl
            | failed error => exact .inr ⟨error, fun _ => rfl⟩
            | found _ stop =>
              obtain ⟨items, rfl, hitems, -, rest, rfl⟩ := items_of_elementsEnd hbs.right hend
              have hframe : (Frame.array digits items).WellFormed limits :=
                ⟨hdigits, mt List.length_eq_zero_iff.2 hcount, Nat.le_of_not_lt hmax, hitems⟩
              exact absurd ⟨rest, List.append_assoc ..⟩ (h _ hframe)
    · split
      · next hmark =>
        subst hmark
        cases hread : Wire.bulk limits (Encoding.bulkMark :: tail) with
        | incomplete => exact .inl fun _ => rfl
        | failed error => exact .inr ⟨error, fun _ => rfl⟩
        | found arg used =>
          obtain ⟨item, hitem, -, -, rest, hrest⟩ := BulkFrame.of_read hbs hread
          exact absurd ⟨rest, hrest.symm⟩ (h (.bulk item) hitem)
      · cases hread : inline (b :: tail) with
        | incomplete => exact .inl fun _ => rfl
        | failed error => exact .inr ⟨error, fun _ => rfl⟩
        | found arg used =>
          obtain ⟨harg, -, rest, hrest⟩ := ping_of_inline hread
          refine absurd ⟨rest, ?_⟩ (h (.ping arg) harg)
          rw [hrest, Frame.bytes, List.append_assoc]

end Wire
end RespStore
