import RespStore.Proofs.Wire.Resumption
import RespStore.Wire.SendBuffer

/-!
# RespStore.Proofs.Wire.Writing

Requests made with the writer of replies. A bulk string is the same in both directions, so a client
may have its arguments written as replies are: each of them after a line with their number, or a
lone argument by itself (`Writing`). The writer computes the size of a bulk string before it writes,
and the reader computes it again from the header; `Writing.frame` is the frame that both speak of.

`outcome_written` says that what was written is read back, byte for byte, and is not affected by
what follows it, unless the reader crashes there.
-/

namespace RespStore

/-- The parts of bytes that fit in memory fit in memory. -/
theorem Bytes.Addressable.of_mem {α : Type} {encode : α → Bytes} {as : List α}
    (h : Bytes.Addressable (as.flatMap encode)) {a : α} (ha : a ∈ as) :
    Bytes.Addressable (encode a) := by
  obtain ⟨front, back, rfl⟩ := List.append_of_mem ha
  rw [List.flatMap_append, List.flatMap_cons] at h
  exact h.right.left

namespace SendBuffer

/-! ### Writing one thing after another -/

/-- Writes one thing after another by `put`, up to the first that does not fit. -/
def putAll {α : Type} (put : SendBuffer → α → Except WriteError Unit × SendBuffer)
    (w : SendBuffer) : List α → Except WriteError Unit × SendBuffer
  | [] => (.ok (), w)
  | a :: as =>
    match put w a with
    | (.ok (), w) => putAll put w as
    | (.error error, w) => (.error error, w)

/-- Writing into `w` succeeds and adds `bytes`. -/
def Puts (w : SendBuffer) (bytes : Bytes) (outcome : Except WriteError Unit × SendBuffer) : Prop :=
  ∃ w' : SendBuffer, outcome = (.ok (), w') ∧ w'.written = w.written ++ bytes ∧
    w'.remaining + bytes.length = w.remaining

/-- What fits is written. -/
theorem puts_put {w : SendBuffer} {bytes : Bytes} (h : bytes.length ≤ w.remaining) :
    w.Puts bytes (w.put bytes.length bytes) := by
  have hwritten := written_put h bytes
  have hlen := congrArg List.length hwritten
  rw [put_of_le h] at hwritten hlen ⊢
  rw [List.length_append, length_written, length_written] at hlen
  refine ⟨_, rfl, hwritten, ?_⟩
  simp only [remaining] at h hlen ⊢
  omega

theorem puts_putBulk {w : SendBuffer} {payload : Bytes}
    (h : (Encoding.bulk payload).length ≤ w.remaining) :
    w.Puts (Encoding.bulk payload) (w.putBulk payload) := by
  rw [putBulk, ← Encoding.length_bulk]
  exact puts_put h

theorem Puts.trans {w w₁ : SendBuffer} {bytes bytes' : Bytes}
    {outcome : Except WriteError Unit × SendBuffer} (h : w.Puts bytes (.ok (), w₁))
    (h' : w₁.Puts bytes' outcome) : w.Puts (bytes ++ bytes') outcome := by
  obtain ⟨_, hok, hwritten, hroom⟩ := h
  cases hok
  obtain ⟨w₂, rfl, hwritten', hroom'⟩ := h'
  refine ⟨w₂, rfl, by rw [hwritten', hwritten, List.append_assoc], ?_⟩
  rw [List.length_append]
  omega

/-- What fits as a whole is written as a whole. -/
theorem puts_putAll {α : Type} {put : SendBuffer → α → Except WriteError Unit × SendBuffer}
    {encode : α → Bytes}
    (hput : ∀ w a, (encode a).length ≤ remaining w → w.Puts (encode a) (put w a))
    {as : List α} {w : SendBuffer} (h : (as.flatMap encode).length ≤ w.remaining) :
    w.Puts (as.flatMap encode) (w.putAll put as) := by
  induction as generalizing w with
  | nil => exact ⟨w, rfl, (List.append_nil _).symm, rfl⟩
  | cons a as ih =>
    rw [List.flatMap_cons, List.length_append] at h
    obtain ⟨w₁, hput₁, hadds⟩ := hput w a (by omega)
    have hrest : w₁.Puts (as.flatMap encode) (w₁.putAll put as) := ih (by omega)
    rw [putAll, hput₁, List.flatMap_cons]
    exact Puts.trans ⟨w₁, rfl, hadds⟩ hrest

end SendBuffer

namespace Wire

/-! ### Written requests -/

/-- A way to write a request. -/
inductive Writing
  /-- Its arguments after a line with their number. -/
  | array (args : List Bytes)
  /-- Its only argument by itself. -/
  | single (arg : Bytes)
  deriving Repr, DecidableEq

namespace Writing

/-- The arguments of the request. -/
def args : Writing → List Bytes
  | array args => args
  | single arg => [arg]

/-- The line that announces `count` arguments. -/
def opening (count : Nat) : Bytes := headerLine Encoding.arrayMark (Decimal.encode count)

/-- Writes the request, and every argument as the bulk string of a reply. -/
def put (w : SendBuffer) : Writing → Except WriteError Unit × SendBuffer
  | array args =>
    match w.putRaw (opening args.length) with
    | (.ok (), w) => w.putAll SendBuffer.putBulk args
    | (.error error, w) => (.error error, w)
  | single arg => w.putBulk arg

/-- The request on the wire. -/
def bytes : Writing → Bytes
  | array args => opening args.length ++ args.flatMap Encoding.bulk
  | single arg => Encoding.bulk arg

/-- The size of the request, from the sizes of its parts. -/
def size : Writing → Nat
  | array args =>
    (opening args.length).length + (args.map fun arg => Encoding.bulkSizeWord arg.length).sum
  | single arg => Encoding.bulkSizeWord arg.length

/-- The request has an argument, and its arguments are within the limits. -/
def Allowed (limits : Limits) : Writing → Prop
  | array args =>
    args ≠ [] ∧ args.length ≤ limits.maxArgs ∧ ∀ arg ∈ args, arg.length ≤ limits.maxBulk
  | single arg => arg.length ≤ limits.maxBulk

instance (limits : Limits) : (w : Writing) → Decidable (w.Allowed limits)
  | array _ => inferInstanceAs (Decidable (_ ∧ _))
  | single _ => inferInstanceAs (Decidable (_ ≤ _))

/-- An argument as the writer writes it. -/
def item (arg : Bytes) : BulkFrame := ⟨Decimal.encode arg.length, arg⟩

/-- The request as the writer writes it. -/
def frame : Writing → Frame
  | array args => .array (Decimal.encode args.length) (args.map item)
  | single arg => .bulk (item arg)

variable {limits : Limits} {w : Writing}

theorem bytes_item (arg : Bytes) : (item arg).bytes = Encoding.bulk arg := by
  simp [item, BulkFrame.bytes, headerLine, Encoding.bulk]

theorem itemsBytes_map_item (args : List Bytes) :
    itemsBytes (args.map item) = args.flatMap Encoding.bulk := by
  rw [itemsBytes, List.flatMap_map]
  exact List.flatMap_congr fun arg _ => bytes_item arg

theorem bytes_frame (w : Writing) : w.frame.bytes = w.bytes := by
  cases w with
  | array args => rw [frame, Frame.bytes, itemsBytes_map_item, bytes, opening]
  | single arg => exact bytes_item arg

theorem args_frame (w : Writing) : w.frame.args = w.args := by
  cases w with
  | array args =>
    rw [frame, Frame.args, List.map_map]
    exact List.map_id _
  | single arg => rfl

/-- A bulk string is longer than its payload. -/
theorem length_lt_of_addressable {arg : Bytes} (h : (Encoding.bulk arg).Addressable) :
    Encoding.bulkSize arg.length < 2 ^ 63 ∧ arg.length < 2 ^ 63 := by
  unfold Bytes.Addressable at h
  rw [Encoding.length_bulk] at h
  refine ⟨h, ?_⟩
  unfold Encoding.bulkSize at h
  omega

theorem wellFormed_item {arg : Bytes} (h : arg.length ≤ limits.maxBulk)
    (haddr : (Encoding.bulk arg).Addressable) : (item arg).WellFormed limits := by
  have hlen := (length_lt_of_addressable haddr).2
  exact ⟨Decimal.denotes_encode (by unfold Word.size; omega), h⟩

/-- **What is written is a well-formed request**, if memory holds it. -/
theorem wellFormed_frame (h : w.Allowed limits) (haddr : w.bytes.Addressable) :
    w.frame.WellFormed limits := by
  cases w with
  | array args =>
    obtain ⟨hne, hcount, hallowed⟩ := h
    have hitems : ∀ f ∈ args.map item, f.WellFormed limits := by
      rw [List.forall_mem_map]
      intro arg harg
      exact wellFormed_item (hallowed arg harg) (Bytes.Addressable.of_mem haddr.right harg)
    -- every argument takes a byte at least, so memory bounds their number as well
    have hlen : args.length < Word.size := by
      have hbytes := haddr.right
      have hcount : (args.map fun arg => (Encoding.bulk arg).length).length ≤
          (args.map fun arg => (Encoding.bulk arg).length).sum := by
        refine List.length_le_sum_of_one_le _ ?_
        rw [List.forall_mem_map]
        exact fun arg _ => Nat.succ_pos _
      unfold Bytes.Addressable at hbytes
      rw [List.length_map] at hcount
      rw [List.length_flatMap] at hbytes
      unfold Word.size
      omega
    refine ⟨?_, by simpa using hne, by simpa using hcount, hitems⟩
    rw [List.length_map]
    exact Decimal.denotes_encode hlen
  | single arg => exact wellFormed_item h haddr

/-- The sizes of the parts add up to the number of bytes. -/
theorem length_bytes (haddr : w.bytes.Addressable) : w.bytes.length = w.size := by
  have hbulk {arg : Bytes} (h : (Encoding.bulk arg).Addressable) :
      (Encoding.bulk arg).length = Encoding.bulkSizeWord arg.length := by
    have := (length_lt_of_addressable h).1
    rw [Encoding.bulkSizeWord_of_lt (by unfold Word.size; omega), Encoding.length_bulk]
  cases w with
  | array args =>
    rw [bytes, size, List.length_append, List.length_flatMap]
    congr 2
    exact List.map_congr_left fun arg harg => hbulk (Bytes.Addressable.of_mem haddr.right harg)
  | single arg => exact hbulk haddr

/-- A buffer that has room for the request takes it. -/
theorem puts_put {buffer : SendBuffer} (h : w.bytes.length ≤ buffer.remaining) :
    buffer.Puts w.bytes (put buffer w) := by
  cases w with
  | array args =>
    rw [bytes, List.length_append] at h
    obtain ⟨buffer₁, hopening, hadds⟩ :=
      SendBuffer.puts_put (show (opening args.length).length ≤ buffer.remaining by omega)
    have hfits : (args.flatMap Encoding.bulk).length ≤ buffer₁.remaining := by
      have := hadds.2
      omega
    have hargs : buffer₁.Puts (args.flatMap Encoding.bulk)
        (buffer₁.putAll SendBuffer.putBulk args) :=
      SendBuffer.puts_putAll (fun _ _ => SendBuffer.puts_putBulk) hfits
    rw [put, SendBuffer.putRaw, hopening]
    exact SendBuffer.Puts.trans ⟨buffer₁, rfl, hadds⟩ hargs
  | single arg => exact SendBuffer.puts_putBulk h

theorem framesBytes_map_frame (ws : List Writing) :
    framesBytes (ws.map frame) = ws.flatMap bytes := by
  rw [framesBytes, List.flatMap_map]
  exact List.flatMap_congr fun w _ => bytes_frame w

end Writing
end Wire

namespace Batch

open Wire

variable {limits : Limits} {a : Arena} {bs rest : Bytes} {fs : List Frame}

/-! ### Reading what was written -/

/-- Frames are all taken in where what follows them is no request. -/
theorem outcome_frames {tail : Bytes} (hfs : ∀ f ∈ fs, f.WellFormed limits) (hne : fs ≠ [])
    (hbs : Bytes.Addressable (framesBytes fs ++ tail)) (hroom : a.used + cost fs ≤ a.limit)
    (htail : (∀ a, request limits a tail = (.incomplete, a)) ∨
      ∃ error : FrameError, error.isCrash = false ∧
        ∀ a, request limits a tail = (.failed (.frame error), a)) :
    outcome limits a (framesBytes fs ++ tail) =
      .ok (fs.map Frame.args, (framesBytes fs).length) := by
  obtain ⟨b, a', hpaid, hread⟩ := read_frames_append hfs hbs hroom
  have hend : readFrom limits b a' tail (framesBytes fs).length =
      (.ok (some ⟨b, (framesBytes fs).length⟩), a') := by
    rcases htail with hrequest | ⟨error, hcrash, hrequest⟩
    · rw [readFrom_incomplete (hrequest a'), hpaid.close hne]
    · exact hpaid.readFrom_deferred hne (hrequest a') hcrash _
  rw [outcome, hread, hend, Except.map, taken, hpaid.toList, map_toList_requestOf]

/-- They are all lost where the reader crashes behind them. -/
theorem outcome_frames_of_crash {tail : Bytes} (hfs : ∀ f ∈ fs, f.WellFormed limits)
    (hbs : Bytes.Addressable (framesBytes fs ++ tail)) (hroom : a.used + cost fs ≤ a.limit)
    {error : FrameError} (hcrash : error.isCrash = true)
    (htail : ∀ a, request limits a tail = (.failed (.frame error), a)) :
    outcome limits a (framesBytes fs ++ tail) = .error (.frame error) := by
  obtain ⟨b, a', -, hread⟩ := read_frames_append hfs hbs hroom
  rw [outcome, hread, readFrom_refused (htail a') (.inr hcrash)]
  rfl

end Batch
end RespStore
