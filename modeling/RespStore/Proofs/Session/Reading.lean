import RespStore.Proofs.Session.Stopping

/-!
# RespStore.Proofs.Session.Reading

What a session reads. Whenever it reads, it has answered all that it could and has room for more, so
a buffer without room is reported only to a client whose next request does not fit there, and no
request that fits is refused for its size, however it is cut (`run_reads`).
-/

namespace RespStore

open Wire

namespace Stage

open Session

variable {s₀ s s' : Session} {stream : Bytes} {arrivals : List Arrival}

/-- A session that goes on looking has taken at least a byte from its buffer. -/
theorem Sound.shorter_of_answering (hsize : s₀.bufferSize < 2 ^ 63)
    (h : (Stage.answering s arrivals).Sound s₀ stream) {arrivals' : List Arrival}
    (hnext : (Stage.answering s arrivals).next = .answering s' arrivals') :
    ∃ consumed, 1 ≤ consumed ∧ consumed ≤ s.buffered.length ∧
      s'.buffered = s.buffered.drop consumed := by
  obtain ⟨read, fs, -, hmid⟩ := h
  rcases Sound.answering_cases hsize hmid arrivals with
    ⟨_, _, _, hended, -⟩ | ⟨_, hreading, -⟩ | ⟨consumed, s₁, gs, hanswering, hpos, hle, hrest, -⟩
  · rw [hended] at hnext
    cases hnext
  · rw [hreading] at hnext
    cases hnext
  · rw [hanswering] at hnext
    cases hnext
    exact ⟨consumed, hpos, hle, hrest⟩

/-- A session takes for the end of the stream only a read that gives nothing. -/
theorem atEnd_of_next {cause : Ending} (h : (Stage.reading s arrivals).next = .ended cause s')
    (hcause : cause = .left ∨ cause = .cutOff) :
    arrivals = [] ∨ ∃ rest, arrivals = .data [] :: rest := by
  rcases Sound.reading_cases s arrivals with ⟨_, _, hended, -, -, hatEnd⟩ |
    ⟨-, ⟨_, -, hreading⟩ | ⟨_, _, -, -, hanswering⟩⟩
  · rw [hended] at h
    cases h
    exact hatEnd hcause
  · rw [hreading] at h
    cases h
  · rw [hanswering] at h
    cases h

end Stage

namespace Session

open Command

variable {s₀ s s' : Session} {stream rest : Bytes} {store : Store}

/-- What a session has read divides into the requests that it answered and what is in its buffer. -/
theorem Awaits.divides (h : s₀.Awaits stream rest s) :
    ∃ read fs, stream = read ++ rest ∧ read.length = s.readCount ∧
      Divides (Limits.ofBuffer s₀.bufferSize) read fs s.buffered ∧ Incomplete s.buffered ∧
      s.output = repliesBytes (fs.map Frame.args) s₀.store ∧
      s.store = (executeAll (fs.map Frame.args) s₀.store).2 := by
  obtain ⟨read, fs, hstream, hmid, hnone⟩ := h
  exact ⟨read, fs, hstream, hmid.readCount.symm, ⟨hmid.wellFormed, hmid.bytes, hnone _⟩, hnone,
    hmid.output, hmid.store⟩

/-- A session that reads has room, and one without room does not read. -/
theorem Awaits.room (h : s₀.Awaits stream rest s) (arrivals : List Arrival) :
    s.buffered.length < s₀.bufferSize ∨
      (Stage.reading s arrivals).next = .ended (.oversized s₀.bufferSize) s := by
  obtain ⟨read, fs, -, hmid, -⟩ := h
  have hfits := hmid.fits
  have hbuffer := hmid.bufferSize
  by_cases hfull : s.isFull = true
  · right
    rw [Stage.next.eq_def]
    dsimp only
    rw [if_pos hfull, hbuffer]
  · left
    rw [isFull, beq_iff_eq] at hfull
    omega

/-- A request at the start of bytes that are incomplete so far as `size` is longer than that. -/
theorem lt_length_of_incomplete {size : Nat} {bs : Bytes} (hlong : size ≤ bs.length)
    (h : Incomplete (bs.take size)) {limits : Limits} {f : Frame} (hf : f.WellFormed limits)
    (hfirst : f.bytes <+: bs) : size < f.bytes.length := by
  by_contra hfits
  refine h limits f hf (List.prefix_of_prefix_length_le hfirst (List.take_prefix ..) ?_)
  rw [List.length_take]
  omega

/-- **Bytes that a session refuses may begin with a request only if that has too long a numeral.**
The request may be cut anywhere, as long as it fits the buffer. -/
theorem Refuses.openHeader_of_frame {size : Nat} (hsize : size < 2 ^ 63) {bs more : Bytes}
    {error : FrameError} (h : Refuses size bs (.frame error)) {f : Frame}
    (hf : f.WellFormed Limits.standard) (hfits : f.bytes.length ≤ size)
    (hfirst : f.bytes <+: bs ++ more) : error = openHeader ∧ ¬f.ShortNumerals := by
  obtain ⟨hbs, a, a', -, -, hread⟩ := h
  -- of what follows, only the rest of the request matters
  have hneeded : f.bytes <+: bs ++ more.take (f.bytes.length - bs.length) := by
    refine List.prefix_of_prefix_length_le hfirst
      ((List.prefix_append_right_inj bs).2 (List.take_prefix ..)) ?_
    have := hfirst.length_le
    rw [List.length_append] at this ⊢
    rw [List.length_take]
    omega
  refine Batch.frame_error_of_read (Limits.maxBulk_ofBuffer size)
    (Frame.allowed_of_fits hf hfits) ?_ hneeded hread
  have hshort := List.length_take_le (f.bytes.length - bs.length) more
  unfold Bytes.Addressable at hbs ⊢
  rw [List.length_append]
  omega

/-- A session without room has before it bytes that are no complete request. -/
theorem refused_of_sound {size : Nat}
    (h : (Stage.ended (.oversized size) s).Sound s₀ stream) :
    size = s₀.bufferSize ∧ ∃ fs rest, stream = framesBytes fs ++ rest ∧
      (∀ f ∈ fs, f.WellFormed (Limits.ofBuffer s₀.bufferSize)) ∧
      s.output = repliesBytes (fs.map Frame.args) s₀.store ∧
      size ≤ rest.length ∧ Incomplete (rest.take size) := by
  obtain ⟨hsame, hfull, unread, hawaits⟩ := h size rfl
  obtain ⟨read, fs, hstream, -, hdiv, hnone, houtput, -⟩ := hawaits.divides
  refine ⟨hsame, fs, s.buffered ++ unread, ?_, hdiv.wellFormed, houtput, ?_, ?_⟩
  · rw [hstream, hdiv.bytes, List.append_assoc]
  · rw [List.length_append, hfull]
    exact Nat.le_add_right ..
  · rwa [← hfull, List.take_left]

/-! ### Whole sessions -/

section Runs

variable {sizes : Sizes} {script : Script} {traffic : Traffic}

/-- A run that refuses a request which fits the buffer does so for its numerals. -/
theorem run_refuses (hsize : sizes.buffer < 2 ^ 63) (hfresh : script.outlet.unflushed = [])
    {error : FrameError}
    (h : (run sizes script store traffic).cause = .malformed (.frame error)) :
    ∃ fs rest, script.arrivals.flatMap Arrival.bytes = framesBytes fs ++ rest ∧
      (∀ f ∈ fs, f.WellFormed (Limits.ofBuffer sizes.buffer)) ∧
      (run sizes script store traffic).output =
        repliesBytes (fs.map Frame.args) store ++ report sizes.buffer (.frame error) ∧
      ∀ f, Frame.WellFormed Limits.standard f → f.bytes.length ≤ sizes.buffer →
        f.bytes <+: rest → error = openHeader ∧ ¬f.ShortNumerals := by
  obtain ⟨read, fs, ⟨unread, hunread⟩, -, hfs, -, -, -, hreported⟩ :=
    run_ends sizes hfresh store traffic
  obtain ⟨houtput, rest, hrest, hrefuses⟩ := hreported _ h
  refine ⟨fs, rest ++ unread, ?_, hfs, houtput, ?_⟩
  · rw [← List.append_assoc, ← hrest]
    exact hunread.symm
  · intro f hf hfits hbegins
    exact hrefuses.openHeader_of_frame hsize hf hfits hbegins

end Runs

/-- **Whenever a session reads, it has answered all that it could, and it has room.** What has been
read divides into the requests that were answered, in order, and the bytes in the buffer, which are
no complete request. A read without bytes is therefore the end of the stream.

Each look that is followed by another takes a byte at least from the buffer, and the session comes
to its end. It reports a buffer without room only if the bytes that it could not answer begin with
no complete request as far as the buffer reaches. So no request that fits the buffer is refused for
its size, wherever it is cut; where its bytes are refused, it has a numeral of more than twenty
digits. -/
theorem run_reads (sizes : Sizes) {script : Script} (hfresh : script.outlet.unflushed = [])
    (hup : script.shutDown = false) (store : Store) (traffic : Traffic) {s₀ : Session}
    (hstart : start sizes script.outlet store traffic.opened = .ok s₀) :
    let stream := script.arrivals.flatMap Arrival.bytes
    let limits := Limits.ofBuffer sizes.buffer
    let stage (n : Nat) := Stage.next^[n] (.reading s₀ script.arrivals)
    let t := run sizes script store traffic
    (∀ n s arrivals, stage n = .reading s arrivals →
        (∃ read fs, stream = read ++ arrivals.flatMap Arrival.bytes ∧
          read.length = s.readCount ∧ Divides limits read fs s.buffered ∧
          Incomplete s.buffered ∧ s.output = repliesBytes (fs.map Frame.args) store ∧
          s.store = (executeAll (fs.map Frame.args) store).2) ∧
        (s.buffered.length < sizes.buffer ∨
          stage (n + 1) = .ended (.oversized sizes.buffer) s) ∧
        ∀ cause s', stage (n + 1) = .ended cause s' → cause = .left ∨ cause = .cutOff →
          arrivals = [] ∨ ∃ rest, arrivals = .data [] :: rest) ∧
      (∀ n s arrivals s' arrivals', stage n = .answering s arrivals →
        stage (n + 1) = .answering s' arrivals' →
        ∃ consumed, 1 ≤ consumed ∧ consumed ≤ s.buffered.length ∧
          s'.buffered = s.buffered.drop consumed) ∧
      (∃ n s, stage n = .ended t.cause s ∧ t = s.transcript t.cause) ∧
      (∀ size, t.cause = .oversized size → size = sizes.buffer ∧
        ∃ fs rest, stream = framesBytes fs ++ rest ∧ (∀ f ∈ fs, f.WellFormed limits) ∧
          t.output = repliesBytes (fs.map Frame.args) store ∧
          size ≤ rest.length ∧ Incomplete (rest.take size) ∧
          ∀ limits' f, Frame.WellFormed limits' f → f.bytes <+: rest → size < f.bytes.length) ∧
      ∀ error, t.cause = .malformed (.frame error) →
        ∃ fs rest, stream = framesBytes fs ++ rest ∧ (∀ f ∈ fs, f.WellFormed limits) ∧
          t.output = repliesBytes (fs.map Frame.args) store ++ report sizes.buffer (.frame error) ∧
          ∀ f, Frame.WellFormed Limits.standard f → f.bytes.length ≤ sizes.buffer →
            f.bytes <+: rest → error = openHeader ∧ ¬f.ShortNumerals := by
  intro stream limits stage t
  obtain ⟨hsize, a, -, hs₀⟩ := fresh_of_start hstart
  have hbuffer : s₀.bufferSize = sizes.buffer := by rw [hs₀]; rfl
  have hstore : s₀.store = store := by rw [hs₀]; rfl
  have hsize₀ : s₀.bufferSize < 2 ^ 63 := hbuffer ▸ hsize
  have hfirst := sound_of_start hfresh hstart
  have hsound (n : Nat) : (stage n).Sound s₀ stream := hfirst.iterate hsize₀ n
  have hsucc (n : Nat) : stage (n + 1) = (stage n).next := Function.iterate_succ_apply' ..
  have ht : t = (s₀.serve script.arrivals).2.transcript (s₀.serve script.arrivals).1 :=
    run_of_start hup hstart
  obtain ⟨n, hended⟩ := hfirst.exists_ended hsize₀
  rw [Stage.outcome_reading] at hended
  generalize (s₀.serve script.arrivals).1 = cause, (s₀.serve script.arrivals).2 = last at ht hended
  have hcause : t.cause = cause := by rw [ht]; rfl
  refine ⟨?_, ?_, ⟨n, last, by rw [hcause]; exact hended, by rw [hcause, ← ht]⟩, ?_, ?_⟩
  · intro n s arrivals hn
    have hawaits := hsound n
    rw [hn] at hawaits
    have hroom := hawaits.room arrivals
    obtain ⟨read, fs, hread⟩ := hawaits.divides
    rw [hbuffer] at hroom hread
    rw [hstore] at hread
    rw [hsucc, hn]
    exact ⟨⟨read, fs, hread⟩, hroom, fun _ _ => Stage.atEnd_of_next⟩
  · intro n s arrivals s' arrivals' hn hnext
    have hlooks := hsound n
    rw [hn] at hlooks
    rw [hsucc, hn] at hnext
    exact hlooks.shorter_of_answering hsize₀ hnext
  · intro size hoversized
    have hend := hsound n
    rw [show stage n = .ended cause last from hended, ← hcause, hoversized] at hend
    obtain ⟨hsame, fs, rest, hstream, hfs, houtput, hlong, hnone⟩ := refused_of_sound hend
    rw [hbuffer] at hsame hfs
    rw [hstore] at houtput
    refine ⟨hsame, fs, rest, hstream, hfs, ?_, hlong, hnone, ?_⟩
    · rw [ht]
      exact houtput
    · intro limits' f hf hbegins
      exact lt_length_of_incomplete hlong hnone hf hbegins
  · intro error
    exact run_refuses hsize hfresh

/-- A request that fills the buffer to its last byte is answered. One with a byte more is not. -/
theorem run_reads_full_buffer :
    let sizes : Sizes := ⟨14, 1024⟩
    let arrivals := [Arrival.data (Bytes.ascii "*1\r\n$4\r\nPI"), .pending,
      .data (Bytes.ascii "NG\r\n*1\r\n$5\r\nHELLO\r\n")]
    let script : Script := ⟨arrivals, Outlet.steady, false⟩
    let t := run sizes script (Store.create 4) Traffic.none
    script.outlet.unflushed = [] ∧ script.shutDown = false ∧ t.cause = .oversized 14 ∧
      t.output = Bytes.ascii "+PONG\r\n" ∧
      ∃ s₀, start sizes script.outlet (Store.create 4) Traffic.none.opened = .ok s₀ ∧
        (∃ n s, Stage.next^[n] (.reading s₀ script.arrivals) = .ended t.cause s) ∧
        ∃ fs rest, script.arrivals.flatMap Arrival.bytes = framesBytes fs ++ rest ∧
          t.output = repliesBytes (fs.map Frame.args) (Store.create 4) ∧
          ∀ limits f, Frame.WellFormed limits f → f.bytes <+: rest → 14 < f.bytes.length := by
  intro sizes arrivals script t
  have hsize : sizes.buffer ≤ Settings.maxBuffer := by decide
  have harena : Arena.isValidCapacity sizes.arena = true := by decide
  have hstart := start_eq hsize harena script.outlet (Store.create 4) Traffic.none.opened
  have hcause : t.cause = .oversized 14 := by decide +kernel
  obtain ⟨-, -, ⟨n, s, hended, -⟩, hoversized, -⟩ :=
    run_reads sizes (rfl : script.outlet.unflushed = []) rfl (Store.create 4) Traffic.none hstart
  obtain ⟨-, fs, rest, hstream, -, houtput, -, -, hlong⟩ := hoversized 14 hcause
  exact ⟨rfl, rfl, hcause, by decide +kernel, _, hstart, ⟨n, s, hended⟩, fs, rest, hstream, houtput,
    hlong⟩

end Session
end RespStore
