import RespStore.Proofs.Command.Interpretation
import RespStore.Proofs.Wire.Filling

/-!
# RespStore.Proofs.Command.Sizes

The size of a reply is known before it is written, and it is exact. A session relies on this where a
reply does not fit: it compares the size with its send buffer, and takes a buffer of just this size
for a reply that is larger.

The size is computed apart from what is written. So is the number of cells that the writer claims,
and both are sums of words. The sums are right as long as memory holds what a reply is made of
(`Reply.addedSize_eq`), and it does if it has room for the words of the request and for the values
of the store (`Command.addressable_execute`). What is not obvious is the text of a refusal: bytes
that a client sent may be no text, and are shown by a character that takes three bytes then
(`Utf8.length_encode_lossy_le`).
-/

namespace RespStore

/-! ### Texts -/

namespace Utf8

theorem length_encode (text : String) : (encode text).length = text.utf8ByteSize := by
  rw [encode, Array.length_toList]
  exact String.size_toByteArray

theorem length_encode_append (front back : String) :
    (encode (front ++ back)).length = (encode front).length + (encode back).length := by
  rw [length_encode, length_encode, length_encode, String.utf8ByteSize_append]

theorem length_encode_ofList (cs : List Char) :
    (encode (String.ofList cs)).length = (cs.map Char.utf8Size).sum := by
  induction cs with
  | nil => rfl
  | cons c cs ih =>
    rw [String.ofList_cons, length_encode_append, ih, length_encode,
      String.utf8ByteSize_singleton, List.map_cons, List.sum_cons]

/-- A number takes as many bytes in a text as on the wire. -/
theorem length_encode_toString (n : Nat) :
    (encode (toString n)).length = (Decimal.encode n).length := by
  have hdigit (c : Char) (hc : c ∈ Nat.toDigits 10 n) : c.utf8Size = 1 := by
    have hc := Nat.isDigit_of_mem_toDigits (by decide) (by decide) hc
    simp only [Char.isDigit, Bool.and_eq_true, decide_eq_true_eq] at hc
    exact Char.utf8Size_eq_one_iff.2 (UInt32.le_trans hc.2 (by decide))
  rw [Nat.toString_eq_repr, Nat.repr_eq_ofList_toDigits, length_encode_ofList,
    List.map_congr_left hdigit, Decimal.encode]
  simp

/-- The number of bytes of a text that shows these characters and gaps. -/
def shownSize (read : List (Option Char)) : Nat :=
  (read.map fun c => (c.getD replacement).utf8Size).sum

/-- The number of bytes of the replacement for an open sequence, should it break off. -/
def openSize : State → Nat
  | .between => 0
  | .inside .. => 3

theorem shownSize_append (front back : List (Option Char)) :
    shownSize (front ++ back) = shownSize front + shownSize back := by
  simp [shownSize]

theorem length_encode_lossy (bs : Bytes) : (encode (lossy bs)).length = shownSize (decode bs) := by
  rw [lossy, length_encode_ofList, List.map_map]
  rfl

theorem size_replacement : replacement.utf8Size = 3 := by decide

/-- A byte that opens a sequence shows nothing, but its sequence may break off. -/
theorem start_size (b : UInt8) : shownSize (start b).1 + openSize (start b).2 ≤ 3 := by
  have hascii : ∀ n < 128, (Char.ofNat n).utf8Size = 1 := by decide
  unfold start
  split
  · next hb =>
    have : b.toNat < 128 := hb
    simp [shownSize, openSize, hascii _ this]
  · split_ifs <;> simp [shownSize, openSize, size_replacement]

theorem step_size (state : State) (b : UInt8) :
    shownSize (step state b).1 + openSize (step state b).2 ≤ openSize state + 3 := by
  have hstart := start_size b
  cases state with
  | between =>
    rw [openSize, Nat.zero_add]
    exact hstart
  | inside owed low high value =>
    rw [step]
    split
    · split
      · have := Char.utf8Size_le_four (Char.ofNat (value * 64 + (b.toNat - 0x80)))
        simp [shownSize, openSize]
        omega
      · simp [shownSize, openSize]
    · -- the sequence breaks off, and its replacement was allowed for when it was opened
      have hgap : shownSize (none :: (start b).1) = 3 + shownSize (start b).1 := by
        simp [shownSize, size_replacement]
      simp only [hgap, openSize.eq_2]
      omega

theorem foldl_advance_size (bs : Bytes) (before : Array (Option Char) × State) :
    let after := bs.foldl advance before
    shownSize after.1.toList + openSize after.2 ≤
      shownSize before.1.toList + openSize before.2 + 3 * bs.length := by
  induction bs generalizing before with
  | nil => exact Nat.le_refl _
  | cons b bs ih =>
    have hrest := ih (advance before b)
    have hstep := step_size before.2 b
    have hread : shownSize (advance before b).1.toList =
        shownSize before.1.toList + shownSize (step before.2 b).1 := by
      simp [advance, shownSize_append]
    have hstate : (advance before b).2 = (step before.2 b).2 := rfl
    rw [hread, hstate] at hrest
    rw [List.foldl_cons, List.length_cons]
    omega

/-- **Showing bytes as text takes three times as many at most.** -/
theorem length_encode_lossy_le (bs : Bytes) : (encode (lossy bs)).length ≤ 3 * bs.length := by
  have hread := foldl_advance_size bs (#[], .between)
  have hfinish (state : State) : shownSize (finish state) ≤ openSize state := by
    cases state <;> simp [finish, openSize, shownSize, size_replacement]
  rw [length_encode_lossy, decode, shownSize_append]
  refine (Nat.add_le_add_left (hfinish _) _).trans (hread.trans ?_)
  simp [shownSize, openSize]

end Utf8

/-! ### Replies -/

namespace Reply

/-- What is written for the reply. -/
def piece : Reply → SendBuffer.Piece
  | .canned reply => .raw reply.bytes
  | .value payload => .bulk payload
  | .refusal cause => .error (Utf8.encode cause.message)

/-- The size of the reply, added up in words. -/
def addedSize : Reply → Option Nat
  | .canned reply => some reply.bytes.length
  | .value payload => SendBuffer.Memory.bulkSize payload.length
  | .refusal cause => do
    let size ← Checked.add 1 (Utf8.encode cause.message).length
    Checked.add size 2

/-- Memory has room for what the reply is made of. -/
def Addressable (r : Reply) : Prop := r.piece.content.Addressable

variable {r : Reply} {w : SendBuffer}

theorem write_eq_piece (r : Reply) (w : SendBuffer) : r.write w = r.piece.put w := by
  cases r <;> rfl

theorem encode_piece (r : Reply) : r.piece.encode = r.encode := by
  cases r <;> rfl

theorem length_encode_piece (r : Reply) : r.piece.encode.length = r.size := by
  rw [encode_piece, length_encode]

theorem addedSize_eq (h : r.Addressable) : r.addedSize = some r.size := by
  cases r with
  | canned reply => rfl
  | value payload => exact SendBuffer.Memory.bulkSize_eq h
  | refusal cause => exact SendBuffer.Memory.lineSize_eq h

/-- A buffer of just the size of the reply is filled with it, whatever its cells held. -/
theorem write_of_capacity_eq (hempty : w.isEmpty = true) (hcapacity : w.capacity = r.size) :
    (r.write w).1 = .ok () ∧ (r.write w).2.remaining = 0 ∧ (r.write w).2.cells = r.encode := by
  have hholds := SendBuffer.Holds.of_isEmpty hempty
  have hposition : w.position = 0 := by
    rw [← SendBuffer.length_written, hholds.written]
    rfl
  have hfits : r.piece.encode.length ≤ w.remaining := by
    rw [length_encode_piece, SendBuffer.remaining, hposition, hcapacity]
    exact Nat.le_refl _
  rw [write_eq_piece]
  refine ⟨SendBuffer.put_piece_eq_ok_iff.2 hfits, ?_, ?_⟩
  · rw [SendBuffer.remaining, SendBuffer.position_put_piece hfits,
      SendBuffer.capacity_put_piece, length_encode_piece, hposition, hcapacity]
    omega
  · rw [SendBuffer.cells_put hfits hholds.within, length_encode_piece, hposition,
      List.drop_of_length_le (by rw [SendBuffer.length_cells]; omega), hholds.written,
      encode_piece]
    simp

end Reply

/-- What the store tells about itself fits in memory: the values, and the number of entries that an
error reports. -/
structure Store.Addressable (s : Store) : Prop where
  values : ∀ key value, s.peek? key = some value → value.Addressable
  capacities : ∀ key value capacity,
    (s.set key value).1 = .error (.capacityExceeded capacity) → capacity < Word.size

/-- For a store that stands for a map, the values of the map are all that matters. -/
theorem Store.Represents.addressable {shards : Nat} {home : Bytes → Nat} {s : Store}
    {r : Store.Reference} (h : Represents Xxh3.hash shards home s r)
    (hvalues : ∀ key value, r.map.lookup key = some value → value.Addressable) :
    s.Addressable := by
  refine ⟨fun key value hvalue => hvalues key value (h.peek?_eq key ▸ hvalue), ?_⟩
  intro key value capacity hset
  rcases h.peek?_set key value with ⟨result, hok, -⟩ | ⟨herror, -⟩
  · rw [hset] at hok
    cases hok
  · rw [hset] at herror
    cases herror
    decide

namespace Command

variable {request : List Bytes} {store : Store}

theorem addressable_canned (reply : Canned) : (Reply.canned reply).Addressable := by
  cases reply <;> (unfold Reply.Addressable; decide)

/-- A text around a word of a request fits in memory with the word. -/
theorem addressable_quoting {arg : Bytes} (h : arg.length ≤ 2 ^ 61) {front back : String}
    (hfront : (Utf8.encode front).length ≤ 64) (hback : (Utf8.encode back).length ≤ 64) :
    Bytes.Addressable (Utf8.encode (front ++ Utf8.lossy arg ++ back)) := by
  have hword := Utf8.length_encode_lossy_le arg
  unfold Bytes.Addressable
  rw [Utf8.length_encode_append, Utf8.length_encode_append]
  omega

theorem addressable_exceeded {capacity : Nat} (h : capacity < Word.size) :
    (Reply.refusal (.store (.capacityExceeded capacity))).Addressable := by
  have hdigits := Decimal.length_encode_le capacity
  have htext : (Utf8.encode (Refusal.store (.capacityExceeded capacity)).message).length =
      38 + (Decimal.encode capacity).length := by
    have hmessage : (Refusal.store (.capacityExceeded capacity)).message =
        "ERR " ++ ("shard capacity exceeded (" ++ toString capacity ++ " entries)") := rfl
    have hfront : (Utf8.encode "ERR ").length = 4 := by decide
    have hmiddle : (Utf8.encode "shard capacity exceeded (").length = 25 := by decide
    have hback : (Utf8.encode " entries)").length = 9 := by decide
    rw [hmessage, Utf8.length_encode_append, Utf8.length_encode_append, Utf8.length_encode_append,
      Utf8.length_encode_toString, hfront, hmiddle, hback]
    omega
  unfold Reply.Addressable Bytes.Addressable
  unfold Word.size at h
  simp only [Reply.piece, SendBuffer.Piece.content, htext]
  omega

theorem addressable_configReply {subcommand parameter : Bytes} (hs : subcommand.length ≤ 2 ^ 61)
    (hp : parameter.length ≤ 2 ^ 61) : (configReply subcommand parameter).Addressable := by
  unfold configReply
  split
  · exact addressable_quoting hs (by decide) (by decide)
  · split
    · exact addressable_canned _
    · split
      · exact addressable_canned _
      · exact addressable_quoting hp (by decide) (by decide)

theorem addressable_run {command : Command} {args : List Bytes}
    (hargs : ∀ arg ∈ args, arg.length ≤ 2 ^ 61)
    (hstore : store.Addressable) :
    (command.run args store).1.Addressable := by
  have harity (command : Command) : (Reply.refusal (.arity command.name)).Addressable := by
    cases command <;> (unfold Reply.Addressable; decide)
  unfold run
  split
  · split
    · next value _ hget => exact hstore.values _ value (congrArg Prod.fst hget)
    · exact addressable_canned _
  · split
    · exact addressable_canned _
    · next error _ hset =>
      obtain ⟨capacity⟩ := error
      exact addressable_exceeded (hstore.capacities _ _ capacity (congrArg Prod.fst hset))
  · exact addressable_canned _
  · rw [List.forall_mem_cons, List.forall_mem_singleton] at hargs
    exact addressable_configReply hargs.1 hargs.2
  · exact addressable_canned _
  · exact harity _

/-- **Memory has room for the reply to any request of its own size**, because a word that is quoted
takes three times its bytes at most. -/
theorem addressable_execute (hrequest : ∀ arg ∈ request, arg.length ≤ 2 ^ 61)
    (hstore : store.Addressable) :
    (execute request store).1.Addressable := by
  cases request with
  | nil =>
    show (Reply.refusal .empty).Addressable
    unfold Reply.Addressable
    decide
  | cons name args =>
    rw [List.forall_mem_cons] at hrequest
    unfold execute
    dsimp only
    split
    · exact addressable_run hrequest.2 hstore
    · exact addressable_quoting hrequest.1 (by decide) (by decide)

/-- **The size of a reply is exact**, for every reply that a request may get from a store. It is
written if and only if it fits in what remains of the buffer, and then the cursor goes on by just
the size. If there is less room, be it by one byte, the answer gives the size and the room, and
nothing has changed. A buffer of just the size is filled to its end.

In memory, no sum of the size or of the writer leaves a word and no check fails, if memory holds
three times the words of the request and what is in the store. -/
theorem write_execute (request : List Bytes) (store : Store) (w : SendBuffer) :
    let r := (execute request store).1
    r.encode.length = r.size ∧
    ((r.write w).1 = .ok () ↔ r.size ≤ w.remaining) ∧
    (r.size ≤ w.remaining →
      (r.write w).2.position = w.position + r.size ∧
      (r.write w).2.written = w.written ++ r.encode) ∧
    (w.remaining < r.size → r.write w = (.error (.full r.size w.remaining), w)) ∧
    (∀ fresh : SendBuffer, fresh.isEmpty = true → fresh.capacity = r.size →
      (r.write fresh).1 = .ok () ∧ (r.write fresh).2.remaining = 0 ∧
      (r.write fresh).2.cells = r.encode) ∧
    ((∀ arg ∈ request, arg.length ≤ 2 ^ 61) → store.Addressable →
      r.addedSize = some r.size ∧
      (w.position ≤ w.capacity → w.capacity < 2 ^ 63 →
        w.memory.put r.piece = some ((r.write w).1, (r.write w).2.memory))) := by
  intro r
  have hsize := r.length_encode_piece
  rw [Reply.write_eq_piece, ← hsize]
  refine ⟨by rw [hsize, r.length_encode], SendBuffer.put_piece_eq_ok_iff,
    fun hfits => ⟨SendBuffer.position_put_piece hfits, ?_⟩,
    fun hshort => SendBuffer.put_piece_of_lt hshort, ?_, ?_⟩
  · rw [SendBuffer.written_put_piece hfits, r.encode_piece]
  · intro fresh hempty hcapacity
    exact Reply.write_of_capacity_eq hempty (hcapacity.trans hsize)
  · intro hrequest hstore
    have haddr : r.Addressable := addressable_execute hrequest hstore
    exact ⟨(Reply.addedSize_eq haddr).trans (congrArg some hsize.symm),
      fun hwithin hw => SendBuffer.Memory.put_eq hwithin hw haddr⟩

/-- A byte that is no text takes three in the refusal that quotes it, and a line break takes as many
blanks as it had bytes. -/
theorem write_execute_no_text :
    let request : List Bytes := [[0xFF, Bytes.cr, Bytes.lf]]
    let store := Store.create 4
    let r := (execute request store).1
    (∀ arg ∈ request, arg.length ≤ 2 ^ 61) ∧ store.Addressable ∧
      r.encode = Bytes.ascii "-ERR unknown command '" ++ [0xEF, 0xBF, 0xBD, 32, 32] ++
        Bytes.ascii "'\r\n" ∧
      r.addedSize = some 30 ∧ (r.write (.ofCapacity 30)).2.cells = r.encode ∧
      r.write (.ofCapacity 29) = (.error (.full 30 29), .ofCapacity 29) := by
  intro request store r
  have hrequest : ∀ arg ∈ request, arg.length ≤ 2 ^ 61 := by decide
  have hstore : store.Addressable := by
    refine (Store.Represents.create_represents Xxh3.hash (by decide)).addressable ?_
    intro key value hlookup
    cases hlookup
  have hsize : r.size = 30 := by decide
  obtain ⟨-, -, -, hshort, hfresh, hmemory⟩ := write_execute request store (.ofCapacity 29)
  exact ⟨hrequest, hstore, by decide, hsize ▸ (hmemory hrequest hstore).1,
    (hfresh (.ofCapacity 30) rfl hsize.symm).2.2, hsize ▸ hshort (by decide)⟩

end Command
end RespStore
