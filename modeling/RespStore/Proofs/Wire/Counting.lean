import RespStore.Proofs.Wire.Division

/-!
# RespStore.Proofs.Wire.Counting

The reader turns an array away as soon as its header announces more elements than the buffer could
hold, and does not wait for them. The limit is a quotient, the size of the buffer by the fewest
bytes of an element. `Batch.count_check_sound` says that it is never too tight, for any size and
however the array is written: an array that is turned away would be longer than the buffer.

An error about the number of elements comes from the header of the first request and from nowhere
else (`Batch.header_of_manyElements`). The header tells how many elements any frame has that begins
there, and so how long it is at least (`Batch.lt_length_of_manyElements`).
-/

namespace RespStore

namespace Wire

variable {limits : Limits} {bs : Bytes} {count allowed : Nat}

/-! ### Where the error comes from -/

theorem badLength_of_header {error : FrameError} (h : header bs = .failed error) :
    ∃ text, error = .badLength text := by
  unfold header at h
  split at h
  · split at h
    · cases h
      exact ⟨_, rfl⟩
    · cases h
  · dsimp only at h
    split at h
    · cases h
      exact ⟨_, rfl⟩
    · split at h
      · cases h
      · cases h
        exact ⟨_, rfl⟩

theorem bulk_ne_manyElements : bulk limits bs ≠ .failed (.manyElements count allowed) := by
  intro h
  unfold bulk at h
  split at h
  · cases h
  · next hheader =>
    cases h
    obtain ⟨_, heq⟩ := badLength_of_header hheader
    cases heq
  · dsimp only at h
    repeat' split at h
    all_goals cases h

theorem inline_ne_manyElements : inline bs ≠ .failed (.manyElements count allowed) := by
  intro h
  unfold inline at h
  split at h
  · cases h
  · dsimp only at h
    split at h
    · split at h <;> cases h
    · split at h <;> cases h

theorem elementsEnd_ne_manyElements (n position : Nat) :
    elementsEnd limits n bs position ≠ .failed (.manyElements count allowed) := by
  induction n generalizing bs position with
  | zero => rintro ⟨⟩
  | succ n ih =>
    cases bs with
    | nil => rintro ⟨⟩
    | cons b bs =>
      rw [elementsEnd]
      split
      · rintro ⟨⟩
      · split
        · exact ih _
        · rintro ⟨⟩
        · next error hbulk =>
          rintro heq
          cases heq
          exact bulk_ne_manyElements hbulk

theorem fill_ne_manyElements (r : Request) (position stop : Nat) :
    fill limits r bs position stop ≠ .failed (.manyElements count allowed) := by
  fun_induction fill limits r bs position stop with
  | case1 _ _ _ _ _ _ _ ih => exact ih
  | case2 => rintro ⟨⟩
  | case3 r bs position hlt error hbulk =>
    intro heq
    cases heq
    exact bulk_ne_manyElements hbulk
  | case4 => rintro ⟨⟩

theorem single_ne_manyElements {a : Arena} {scan : Scan FrameError Bytes}
    (hscan : scan ≠ .failed (.manyElements count allowed)) (a' : Arena) :
    single a scan ≠ (.failed (.frame (.manyElements count allowed)), a') := by
  unfold single
  split
  · split <;> rintro ⟨⟩
  · rintro ⟨⟩
  · next error =>
    intro heq
    cases heq
    exact hscan rfl

/-- **Only the header of an array is counted.** -/
theorem header_of_array_manyElements {a a' : Arena}
    (h : array limits a bs = (.failed (.frame (.manyElements count allowed)), a')) :
    (∃ start, header bs = .found count start) ∧ allowed = limits.maxArgs ∧ allowed < count := by
  unfold array at h
  split at h
  · cases h
  · next hheader =>
    cases h
    obtain ⟨_, heq⟩ := badLength_of_header hheader
    cases heq
  · next n start hheader =>
    split at h
    · cases h
    · split at h
      · next hmany =>
        cases h
        exact ⟨⟨start, hheader⟩, rfl, hmany⟩
      · split at h
        · cases h
        · next error hitems =>
          cases h
          exact absurd hitems (elementsEnd_ne_manyElements _ _)
        · split at h
          · have hscan := (Prod.mk.inj h).1
            unfold Scan.request at hscan
            split at hscan
            · cases hscan
            · cases hscan
            · next error hfill =>
              cases hscan
              exact absurd hfill (fill_ne_manyElements _ _ _)
          · cases h

theorem header_of_request_manyElements {a a' : Arena}
    (h : request limits a bs = (.failed (.frame (.manyElements count allowed)), a')) :
    bs.head? = some Encoding.arrayMark ∧
      (∃ start, header bs = .found count start) ∧ allowed = limits.maxArgs ∧ allowed < count := by
  unfold request at h
  split at h
  · cases h
  · split at h
    · next b rest hmark =>
      exact ⟨congrArg some hmark, header_of_array_manyElements h⟩
    · split at h
      · exact absurd h (single_ne_manyElements bulk_ne_manyElements _)
      · exact absurd h (single_ne_manyElements inline_ne_manyElements _)

end Wire

namespace Batch

open Wire

variable {limits : Limits} {a a' : Arena} {bs : Bytes}

/-- A batch that a request was added to is not empty. -/
theorem isEmpty_of_push {b b' : Batch} {r : Request} (h : b.push a r = (.ok b', a')) :
    b'.isEmpty = false := by
  have hadd {row : Batch} (hroom : row.used < row.capacity) : (row.add r).isEmpty = false := by
    rw [Slots.isEmpty, Slots.used_add hroom]
    rfl
  unfold push at h
  split at h
  · dsimp only at h
    have hcapacity : (b.widen (max 1 (2 * b.capacity))).capacity = max 1 (2 * b.capacity) :=
      Slots.capacity_widen (by omega)
    have hused : b.used ≤ b.capacity := b.used_le
    split at h <;> cases h
    exact hadd (by rw [hcapacity, Slots.used_widen]; omega)
  · next hroom =>
    cases h
    rw [Slots.isFull_iff] at hroom
    exact hadd (by omega)

/-- Once a request is taken in, malformed bytes are no error unless the reader crashes. -/
theorem readFrom_ne_frame {b : Batch} (hb : b.isEmpty = false) (consumed : Nat)
    {error : FrameError} (hcrash : error.isCrash = false) :
    (readFrom limits b a bs consumed).1 ≠ .error (.frame error) := by
  fun_induction readFrom limits b a bs consumed with
  | case1 => rintro ⟨⟩
  | case2 b a bs consumed hne r used a₁ hrequest b' a₂ hpush ih => exact ih (isEmpty_of_push hpush)
  | case3 => rintro ⟨⟩
  | case4 => rintro ⟨⟩
  | case5 b a bs consumed hne error' a₁ hrequest hrefused =>
    rw [hb, Bool.false_or] at hrefused
    rintro ⟨⟩
    exact Bool.false_ne_true (hcrash.symm.trans hrefused)
  | case6 => rintro ⟨⟩

/-- Malformed bytes are an error only where they come first, unless the reader crashes. -/
theorem request_of_read_frame {error : FrameError} (hcrash : error.isCrash = false)
    (h : Batch.read limits a bs = (.error (.frame error), a')) :
    ∃ a₁ a₂, request limits a₁ bs = (.failed (.frame error), a₂) := by
  rw [Batch.read] at h
  split at h
  · next b a₁ hreserve =>
    rw [readFrom] at h
    split at h
    · cases h
    · split at h
      · split at h
        · next hpush =>
          exact absurd (congrArg Prod.fst h) (readFrom_ne_frame (isEmpty_of_push hpush) _ hcrash)
        · cases h
      · cases h
      · next error' a₂ hrequest =>
        split at h
        · cases h
          exact ⟨_, _, hrequest⟩
        · cases h
  · cases h

/-- **The error comes from the header of the first request.** -/
theorem header_of_manyElements {count allowed : Nat}
    (h : Batch.read limits a bs = (.error (.frame (.manyElements count allowed)), a')) :
    (∃ digits rest, Decimal.Denotes digits count ∧
      bs = headerLine Encoding.arrayMark digits ++ rest) ∧
      allowed = limits.maxArgs ∧ allowed < count := by
  obtain ⟨a₁, a₂, hrequest⟩ := request_of_read_frame rfl h
  obtain ⟨hhead, ⟨start, hheader⟩, hallowed, hmany⟩ := header_of_request_manyElements hrequest
  obtain ⟨mark, digits, rest, hdigits, rfl, -⟩ := header_eq_found hheader
  obtain rfl := Option.some.inj hhead
  exact ⟨⟨digits, rest, hdigits, rfl⟩, hallowed, hmany⟩

end Batch

namespace Wire

variable {limits : Limits} {size count : Nat}

/-- A frame behind the header of an array is an array with so many elements. -/
theorem Frame.eq_array_of_header {f : Frame} (hf : f.WellFormed limits) {digits rest : Bytes}
    (hdigits : Decimal.Denotes digits count)
    (h : f.bytes <+: headerLine Encoding.arrayMark digits ++ rest) :
    ∃ items, f = .array digits items ∧ items.length = count := by
  obtain ⟨tail, heq⟩ := h
  cases f with
  | array digits' items =>
    rw [Frame.bytes, List.append_assoc] at heq
    obtain ⟨rfl, -⟩ := headerLine_append_inj hf.1.cr_notMem hdigits.cr_notMem heq
    exact ⟨items, rfl, hf.1.unique hdigits⟩
  | bulk item => exact absurd (List.cons.inj heq).1 (by decide)
  | ping word => exact (Frame.ping_append_ne hf (.inl rfl) _ _ heq).elim

end Wire

namespace Batch

open Wire

variable {size count allowed : Nat} {a a' : Arena} {bs : Bytes}

/-- What is turned away for its number of elements is too long for the buffer, if it is a frame at
all. -/
theorem lt_length_of_manyElements
    (hsize : size / Limits.minElement ≤ Limits.standard.maxArgs)
    (h : Batch.read (Limits.ofBuffer size) a bs =
      (.error (.frame (.manyElements count allowed)), a'))
    {more : Bytes} {limits : Limits} {f : Frame} (hf : f.WellFormed limits)
    (hfirst : f.bytes <+: bs ++ more) : f.args.length = count ∧ size < f.bytes.length := by
  obtain ⟨⟨digits, rest, hdigits, rfl⟩, rfl, hmany⟩ := header_of_manyElements h
  rw [List.append_assoc] at hfirst
  obtain ⟨items, rfl, hcount⟩ := Frame.eq_array_of_header hf hdigits hfirst
  have hargs : (Frame.array digits items).args.length = count := by
    rw [Frame.args, List.length_map, hcount]
  refine ⟨hargs, Nat.lt_of_not_le ?_⟩
  intro hfits
  obtain ⟨hquotient, hallowed⟩ := Frame.length_args_le_of_fits hf hfits
  have := hallowed (hquotient.trans hsize)
  omega

/-- **No request that the buffer can hold is turned away for the number of its arguments**, if the
limit for the buffer is not cut down to the one for all buffers.

Where the reader turns an array away, nothing that may follow makes it a frame that fits the buffer,
under whatever limits. And an array that fits the buffer has no more elements than the limit, with
any digits in its headers and any payloads in its elements; it is not turned away for them, however
much of it has arrived and whatever follows it. -/
theorem count_check_sound (hsize : size / Limits.minElement ≤ Limits.standard.maxArgs) :
    (∀ (a a' : Arena) (bs : Bytes) (count allowed : Nat),
      Batch.read (Limits.ofBuffer size) a bs =
        (.error (.frame (.manyElements count allowed)), a') →
      allowed = (Limits.ofBuffer size).maxArgs ∧ allowed < count ∧
      ∀ (more : Bytes) (limits : Limits) (f : Frame), f.WellFormed limits →
        f.bytes <+: bs ++ more → f.args.length = count ∧ size < f.bytes.length) ∧
    ∀ (limits : Limits) (digits : Bytes) (items : List BulkFrame),
      (Frame.array digits items).WellFormed limits →
      (Frame.array digits items).bytes.length ≤ size →
      items.length ≤ (Limits.ofBuffer size).maxArgs ∧
      ∀ (a a' : Arena) (bs more : Bytes) (count allowed : Nat),
        (Frame.array digits items).bytes <+: bs ++ more →
        Batch.read (Limits.ofBuffer size) a bs ≠
          (.error (.frame (.manyElements count allowed)), a') := by
  refine ⟨?_, ?_⟩
  · intro a a' bs count allowed h
    obtain ⟨-, hallowed, hmany⟩ := header_of_manyElements h
    exact ⟨hallowed, hmany, fun _ _ _ hf hfirst => lt_length_of_manyElements hsize h hf hfirst⟩
  · intro limits digits items hf hfits
    obtain ⟨hquotient, hargs⟩ := Frame.length_args_le_of_fits hf hfits
    rw [Frame.args, List.length_map] at hquotient hargs
    refine ⟨hargs (hquotient.trans hsize), ?_⟩
    intro a a' bs more count allowed hfirst h
    have hlong := (lt_length_of_manyElements hsize h hf hfirst).2
    exact absurd hfits (Nat.not_le.2 hlong)

/-- A buffer of 1024 bytes has room for 169 empty elements and their header, and 171 are turned away
as soon as they are announced. -/
theorem count_check_sound_at_1024 :
    let a : Arena := ⟨1024, 0, false, by decide, by decide⟩
    let bs := Bytes.ascii "*171\r\n"
    let items := List.replicate 169 (BulkFrame.mk (Bytes.ascii "0") [])
    1024 / Limits.minElement ≤ Limits.standard.maxArgs ∧
      (∃ a', Batch.read (Limits.ofBuffer 1024) a bs =
        (.error (.frame (.manyElements 171 170)), a')) ∧
      (∀ (more : Bytes) (limits : Limits) (f : Frame), f.WellFormed limits →
        f.bytes <+: bs ++ more → 1024 < f.bytes.length) ∧
      (Frame.array (Bytes.ascii "169") items).bytes.length = 1020 ∧
      items.length ≤ (Limits.ofBuffer 1024).maxArgs := by
  intro a bs items
  have hsize : 1024 / Limits.minElement ≤ Limits.standard.maxArgs := by decide
  obtain ⟨a', hread⟩ : ∃ a', Batch.read (Limits.ofBuffer 1024) a bs =
      (.error (.frame (.manyElements 171 170)), a') :=
    read_of_failed (by decide) fun _ => rfl
  have hlength : (Frame.array (Bytes.ascii "169") items).bytes.length = 1020 := by decide +kernel
  have hf : (Frame.array (Bytes.ascii "169") items).WellFormed Limits.standard := by
    decide +kernel
  obtain ⟨hrefused, hallowed⟩ := count_check_sound hsize
  refine ⟨hsize, ⟨a', hread⟩, ?_, hlength, (hallowed _ _ _ hf (by omega)).1⟩
  intro more limits f hf hfirst
  exact ((hrefused a a' bs 171 170 hread).2.2 more limits f hf hfirst).2

end Batch
end RespStore
