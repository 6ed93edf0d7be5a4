import RespStore.Proofs.Session.Sending

/-!
# RespStore.Proofs.Session.Chunks

In what pieces replies go out. A session sends what its send buffer holds, or a reply by itself, so
every piece is a `Chunk`: some replies that fit the send buffer together, or one that is larger than
the whole send buffer. No reply is split, none is sent twice, and none is left out, however large
the send buffer is; it may have no room at all.

`Waiting` ties the bytes in the send buffer to the replies that were written there. A step sends the
first of the replies it has in chunks and leaves the others waiting (`Passes`); when a batch is
answered, none is left.
-/

namespace RespStore

/-- Replies that go out together from a send buffer of `size` bytes. -/
inductive Chunk (size : Nat) : List Reply → Prop
  /-- The send buffer holds them all. -/
  | together {replies : List Reply} (hne : replies ≠ [])
      (hfits : (replies.flatMap Reply.encode).length ≤ size) : Chunk size replies
  /-- The reply is larger than the whole send buffer. -/
  | alone {r : Reply} (hlarge : size < r.encode.length) : Chunk size [r]

theorem Chunk.ne_nil {size : Nat} {replies : List Reply} (h : Chunk size replies) :
    replies ≠ [] := by
  cases h with
  | together hne => exact hne
  | alone => exact List.cons_ne_nil _ _

/-- A chunk has bytes, since every reply does. -/
theorem Chunk.bytes_ne_nil {size : Nat} {replies : List Reply} (h : Chunk size replies) :
    replies.flatMap Reply.encode ≠ [] := by
  obtain ⟨r, rest, rfl⟩ := List.exists_cons_of_ne_nil h.ne_nil
  rw [List.flatMap_cons]
  exact List.append_ne_nil_of_left_ne_nil r.encode_ne_nil _

namespace Session

open Command

variable {s s' s₁ s₂ : Session} {store store₁ store₂ : Store} {chunks more : List (List Reply)}
  {replies : List Reply} {w : SendBuffer} {size : Nat}

/-! ### Chunks that are sent -/

/-- The stream works, and everything it took has reached the client. -/
structure Flows (s : Session) : Prop where
  calm : s.outlet.Calm
  unflushed : s.outlet.unflushed = []

/-- The session `s'` is `s` after its client got the chunks, one at a time, and its store became
`store`. -/
structure Delivers (s : Session) (chunks : List (List Reply)) (store : Store) (s' : Session) :
    Prop where
  sends : s.Sends (chunks.flatten.flatMap Reply.encode) store s'
  events : s'.events.toList =
    s.events.toList ++ chunks.map fun chunk => .sent (chunk.flatMap Reply.encode)
  sized : ∀ chunk ∈ chunks, Chunk s.bufferSize chunk

theorem Delivers.refl (s : Session) : s.Delivers [] s.store s :=
  ⟨.refl s, (List.append_nil _).symm, by simp⟩

theorem Delivers.trans (h₁ : s.Delivers chunks store₁ s₁) (h₂ : s₁.Delivers more store₂ s₂) :
    s.Delivers (chunks ++ more) store₂ s₂ where
  sends := by
    rw [List.flatten_append, List.flatMap_append]
    exact h₁.sends.trans h₂.sends
  events := by rw [h₂.events, h₁.events, List.map_append, List.append_assoc]
  sized := List.forall_mem_append.2 ⟨h₁.sized, h₁.sends.bufferSize ▸ h₂.sized⟩

theorem Delivers.of_store (h : ({ s with store := store₁ } : Session).Delivers chunks store s') :
    s.Delivers chunks store s' :=
  ⟨h.sends.of_store, h.events, h.sized⟩

theorem Delivers.flows (h : s.Delivers chunks store s') (hs : s.Flows) : s'.Flows :=
  ⟨h.sends.calm hs.calm, h.sends.unflushed hs.unflushed⟩

/-- What is sent by one call reaches the client in one event. -/
theorem events_of_send {bytes : Bytes} (h : s.send bytes = (.ok (), s')) :
    ∃ sent, s'.events = s.events.push (.sent sent) := by
  unfold send at h
  split at h
  · cases h
  · split at h
    · cases h
    · next sent _ _ =>
      cases h
      exact ⟨sent, rfl⟩

/-- **A chunk is sent** as it is. -/
theorem Flows.send_chunk (hs : s.Flows) (hchunk : Chunk s.bufferSize replies) :
    ∃ s', s.send (replies.flatMap Reply.encode) = (.ok (), s') ∧
      s.Delivers [replies] s.store s' := by
  have hsend := s.send_outcome (replies.flatMap Reply.encode)
  generalize hresult : s.send (replies.flatMap Reply.encode) = result at hsend
  cases hsend with
  | ends hfails => exact absurd hs.calm hfails.calm
  | @goes _ s' hsends =>
    refine ⟨s', rfl, by simpa using hsends, ?_, by simpa using hchunk⟩
    obtain ⟨sent, hevents⟩ := events_of_send hresult
    -- nothing was left from before, so these are the bytes that the event shows
    have houtput := hsends.output
    rw [output_eq_flushed (hsends.unflushed hs.unflushed), output_eq_flushed hs.unflushed, flushed,
      flushed, hevents, Array.toList_push, List.flatMap_append] at houtput
    have hsent : sent = replies.flatMap Reply.encode := by
      simpa [Event.sentBytes] using List.append_cancel_left houtput
    rw [hevents, hsent, Array.toList_push, List.map_singleton]

/-! ### Replies that wait -/

/-- The send buffer has `size` bytes and holds the replies. -/
structure Waiting (size : Nat) (replies : List Reply) (w : SendBuffer) : Prop where
  capacity : w.capacity = size
  written : w.written = replies.flatMap Reply.encode
  fits : w.position ≤ size

theorem waiting_ofCapacity (size : Nat) : Waiting size [] (SendBuffer.ofCapacity size) :=
  ⟨rfl, rfl, Nat.zero_le _⟩

theorem Waiting.clear (h : Waiting size replies w) : Waiting size [] w.clear :=
  ⟨h.capacity, rfl, Nat.zero_le _⟩

theorem Waiting.chunk (h : Waiting size replies w) (hne : replies ≠ []) : Chunk size replies := by
  refine .together hne ?_
  rw [← h.written, SendBuffer.length_written]
  exact h.fits

/-- The send buffer is empty when no reply waits, since every reply has bytes. -/
theorem Waiting.isEmpty_iff (h : Waiting size replies w) : w.isEmpty = true ↔ replies = [] := by
  have hlength := congrArg List.length h.written
  rw [SendBuffer.length_written] at hlength
  rw [SendBuffer.isEmpty, beq_iff_eq, hlength, List.length_eq_zero_iff]
  constructor
  · intro hnil
    by_contra hne
    exact (h.chunk hne).bytes_ne_nil hnil
  · intro hnil
    rw [hnil, List.flatMap_nil]

/-- A reply for which there is room waits behind the others. -/
theorem Waiting.write (h : Waiting size replies w) {r : Reply} (hroom : r.size ≤ w.remaining) :
    ∃ w', r.write w = (.ok (), w') ∧ Waiting size (replies ++ [r]) w' := by
  have hwritten := SendBuffer.written_put hroom r.encode
  have hposition := congrArg List.length hwritten
  rw [List.length_append, r.length_encode, SendBuffer.length_written,
    SendBuffer.length_written] at hposition
  have hfits := h.fits
  have hcapacity := h.capacity
  rw [Reply.write_eq_put]
  rw [SendBuffer.put_of_le hroom] at hwritten hposition ⊢
  rw [SendBuffer.remaining] at hroom
  refine ⟨_, rfl, hcapacity, ?_, Nat.le_trans (Nat.le_of_eq hposition) (by omega)⟩
  rw [hwritten, h.written, List.flatMap_append, List.flatMap_singleton]

/-- The session `s'` is `s` after it had the replies to send. The first of them were sent, and the
others wait in `w'`. -/
def Passes (s : Session) (replies : List Reply) (store : Store) (w' : SendBuffer) (s' : Session) :
    Prop :=
  ∃ chunks rest, s.Delivers chunks store s' ∧ Waiting s.bufferSize rest w' ∧
    chunks.flatten ++ rest = replies

/-- Sending what waits leaves nothing waiting. -/
theorem Flows.sendWritten (hs : s.Flows) (h : Waiting s.bufferSize replies w) :
    ∃ w' s' chunks, s.sendWritten w = (.ok w', s') ∧ s.Delivers chunks s.store s' ∧
      Waiting s.bufferSize [] w' ∧ chunks.flatten = replies := by
  by_cases hnil : replies = []
  · subst hnil
    rw [Session.sendWritten, if_pos (h.isEmpty_iff.2 rfl)]
    exact ⟨w, s, [], rfl, .refl s, h, rfl⟩
  · obtain ⟨s', hsend, hs'⟩ := hs.send_chunk (h.chunk hnil)
    rw [← h.written] at hsend
    rw [Session.sendWritten, if_neg (mt h.isEmpty_iff.1 hnil), hsend]
    exact ⟨w.clear, s', [replies], rfl, hs', h.clear, by simp⟩

/-- A reply larger than the send buffer is sent by itself. -/
theorem Flows.sendAlone (hs : s.Flows) {r : Reply} (hlarge : s.bufferSize < r.size) :
    ∃ s', s.sendAlone r = (.ok (), s') ∧ s.Delivers [[r]] s.store s' := by
  obtain ⟨s', hsend, hs'⟩ := hs.send_chunk (.alone (r.length_encode ▸ hlarge))
  rw [List.flatMap_singleton] at hsend
  rw [sendAlone_eq]
  exact ⟨s', hsend, hs'⟩

/-- **A reply waits behind the others**, or they are sent first, and the reply as well if it is too
large to wait. -/
theorem Flows.reply (hs : s.Flows) (h : Waiting s.bufferSize replies w) (r : Reply) :
    ∃ w' s', s.reply w r = (.ok w', s') ∧ s.Passes (replies ++ [r]) s.store w' s' := by
  by_cases hroom : r.size ≤ w.remaining
  · obtain ⟨w', hwrite, hw'⟩ := h.write hroom
    rw [Session.reply, hwrite]
    exact ⟨w', s, rfl, [], _, .refl s, hw', rfl⟩
  · have hfull : r.write w = (.error (.full r.size w.remaining), w) := by
      rw [Reply.write_eq_put, SendBuffer.put_of_lt (Nat.lt_of_not_le hroom)]
    -- the reply was not written, so what is sent now are the replies before it
    obtain ⟨w₁, s₁, chunks, hsend, hs₁, hw₁, rfl⟩ := hs.sendWritten h
    rw [Session.reply, hfull]
    dsimp only
    rw [hsend]
    dsimp only
    have hsize := hs₁.sends.bufferSize
    split
    · next hlarge =>
      rw [hw₁.capacity, ← hsize] at hlarge
      obtain ⟨s₂, halone, hs₂⟩ := (hs₁.flows hs).sendAlone hlarge
      rw [halone]
      refine ⟨w₁, s₂, rfl, chunks ++ [[r]], [], ?_, hw₁, by simp⟩
      exact hs₁.sends.store ▸ hs₁.trans hs₂
    · next hsmall =>
      have hclear : w₁.position = 0 := beq_iff_eq.1 (hw₁.isEmpty_iff.2 rfl)
      obtain ⟨w₂, hwrite, hw₂⟩ := hw₁.write (r := r) (by rw [SendBuffer.remaining]; omega)
      rw [hwrite]
      exact ⟨w₂, s₁, rfl, chunks, [r], hs₁, hw₂, rfl⟩

/-- **Replies go out in the order of the requests**, in chunks, and the last ones wait. -/
theorem Flows.execute (hs : s.Flows) (h : Waiting s.bufferSize replies w)
    (requests : List Request) :
    let (answers, store) := executeAll (requests.map Slots.toList) s.store
    ∃ w' s', s.execute w requests = (.ok w', s') ∧ s.Passes (replies ++ answers) store w' s' := by
  induction requests generalizing s w replies with
  | nil => exact ⟨w, s, rfl, [], replies, .refl s, h, by simp⟩
  | cons request rest ih =>
    obtain ⟨r, store, hexec⟩ : ∃ r store, Command.execute request.toList s.store = (r, store) :=
      ⟨_, _, rfl⟩
    obtain ⟨w₁, s₁, hreply, chunks₁, waiting, hs₁, hw₁, hsplit₁⟩ :=
      Flows.reply (s := { s with store }) ⟨hs.calm, hs.unflushed⟩ h r
    have hsize := hs₁.sends.bufferSize
    have hstore : s₁.store = store := hs₁.sends.store
    obtain ⟨w₂, s₂, hrest, chunks₂, waiting₂, hs₂, hw₂, hsplit₂⟩ :=
      ih (hs₁.flows ⟨hs.calm, hs.unflushed⟩) (hsize ▸ hw₁)
    rw [hstore] at hs₂ hsplit₂
    rw [List.map_cons, executeAll, Session.execute, hexec]
    dsimp only
    rw [hreply]
    refine ⟨w₂, s₂, hrest, chunks₁ ++ chunks₂, waiting₂, (hs₁.trans hs₂).of_store, hsize ▸ hw₂, ?_⟩
    rw [List.flatten_append, List.append_assoc, hsplit₂, ← List.append_assoc, hsplit₁,
      List.append_assoc, List.singleton_append]

/-- **A batch is answered in chunks**, and no reply is left waiting. -/
theorem Flows.answerBatch (hs : s.Flows) (b : Batch) :
    let (answers, store) := executeAll (b.toList.map Slots.toList) s.store
    ∃ chunks s₁, s.answerBatch b = (.ok (), s₁.counting b.used) ∧ s.Delivers chunks store s₁ ∧
      chunks.flatten = answers := by
  obtain ⟨w, s₁, hexec, chunks₁, waiting, hs₁, hw, hsplit⟩ :=
    hs.execute (waiting_ofCapacity s.bufferSize) b.toList
  have hstore := hs₁.sends.store
  obtain ⟨w', s₂, chunks₂, hsend, hs₂, -, rfl⟩ :=
    (hs₁.flows hs).sendWritten (hs₁.sends.bufferSize.symm ▸ hw)
  refine ⟨chunks₁ ++ chunks₂, s₂, ?_, hstore ▸ hs₁.trans hs₂, ?_⟩
  · rw [Session.answerBatch, hexec]
    dsimp only
    rw [hsend]
    rfl
  · rw [List.flatten_append, hsplit, List.nil_append]

/-! ### Answers -/

/-- **Replies get out, whatever the size of the send buffer.** On a stream that works, a batch is
answered with the replies to its requests in order, in chunks: replies that fit the send buffer
together, or one that is larger than the whole of it. No chunk is empty, and the session goes on
behind the batch. On no stream at all does a session end because a reply could not be written. -/
theorem respond_chunks (hcalm : s.outlet.Calm) (hfresh : s.outlet.unflushed = [])
    (r : Batch.Read) :
    let requests := r.batch.toList.map Slots.toList
    (∃ (chunks : List (List Reply)) (s' : Session),
        s.respond (.ok (some r)) = (.ok r.consumed, s') ∧
        chunks.flatten = (executeAll requests s.store).1 ∧
        s'.events.toList =
          s.events.toList ++ chunks.map (fun chunk => .sent (chunk.flatMap Reply.encode)) ∧
        (∀ chunk ∈ chunks,
          Chunk s.bufferSize chunk ∧ chunk.flatMap Reply.encode ≠ []) ∧
        s'.output = s.output ++ repliesBytes requests s.store ∧
        s'.store = (executeAll requests s.store).2) ∧
      ∀ (s₁ : Session) read error, (s₁.respond read).1 ≠ .error (.unwritable error) := by
  intro requests
  constructor
  · obtain ⟨chunks, s₁, hanswer, hs₁, hchunks⟩ := Flows.answerBatch ⟨hcalm, hfresh⟩ r.batch
    refine ⟨chunks, s₁.counting r.batch.used, by rw [respond, hanswer], hchunks, hs₁.events, ?_,
      ?_, hs₁.sends.store⟩
    · intro chunk hchunk
      exact ⟨hs₁.sized chunk hchunk, (hs₁.sized chunk hchunk).bytes_ne_nil⟩
    · rw [repliesBytes, ← hchunks]
      exact hs₁.sends.output
  · intro s₁ read error hcause
    rcases respond_error (Prod.ext hcause rfl) with hstream | ⟨_, hbytes⟩
    · exact hstream
    · cases hbytes

/-- A send buffer of six bytes. One reply fits there, and the two around it are sent by
themselves. -/
theorem respond_chunks_six_bytes :
    let request (args : List Bytes) : Request :=
      args.foldl Slots.add (Slots.ofCapacity args.length)
    let requests := [[Bytes.ascii "PING"], [Bytes.ascii "SET", [1], Bytes.ascii "value"],
      [Bytes.ascii "GET", [1]]]
    let b : Batch := requests.foldl (fun b args => b.add (request args)) (Slots.ofCapacity 3)
    let a : Arena := ⟨Arena.minCapacity, 0, true, by decide, Nat.zero_le _⟩
    let o : Outlet := ⟨[.pending, .ready 4, .ready 4], [.pending], []⟩
    let s : Session := ⟨6, a, [], o, Store.create 1, Traffic.none, #[]⟩
    let pieces := ["+PONG\r\n", "+OK\r\n", "$5\r\nvalue\r\n"].map Bytes.ascii
    (s.respond (.ok (some ⟨b, 70⟩))).2.events.toList = pieces.map Event.sent ∧
      s.outlet.Calm ∧ s.outlet.unflushed = [] ∧
      ∃ (chunks : List (List Reply)) (s' : Session),
        s.respond (.ok (some ⟨b, 70⟩)) = (.ok 70, s') ∧
          chunks.flatten = (executeAll requests s.store).1 ∧ ∀ chunk ∈ chunks, Chunk 6 chunk := by
  intro request requests b a o s pieces
  have hcalm : s.outlet.Calm := by decide
  obtain ⟨⟨chunks, s', hrespond, hchunks, -, hsized, -⟩, -⟩ := respond_chunks hcalm rfl ⟨b, 70⟩
  refine ⟨by decide +kernel, hcalm, rfl, chunks, s', hrespond, hchunks, ?_⟩
  intro chunk hchunk
  exact (hsized chunk hchunk).1

end Session
end RespStore
