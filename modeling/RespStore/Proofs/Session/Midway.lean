import RespStore.Proofs.Session.Serving
import RespStore.Proofs.Wire.Division

/-!
# RespStore.Proofs.Session.Midway

Where a session stands between two steps, and how it ends. `Midway` is the invariant of the read
loop. What has been read consists of the frames that were answered and the bytes in the receive
buffer, so every step that answers frames moves them from the one to the other (`Midway.answered`).

`Ends` says what the last step does to such a session. It sends nothing, or it complains about the
bytes in the buffer, or the stream fails while a complaint or the replies to a batch are sent. A
look at the buffer comes to one of these or keeps the invariant (`Midway.look`).
-/

namespace RespStore.Session

open Command Wire

variable {size : Nat} {store : Store} {read bytes : Bytes} {fs gs : List Frame}
  {s₀ s s' : Session} {cause : Ending} {error : ParseError} {a : Arena}

/-! ### Where a session stands -/

/-- The session `s` began as `s₀` and has read the bytes `read` since. It has answered the frames
`fs` at their start, and the other bytes are in its buffer. -/
structure Midway (s₀ : Session) (read : Bytes) (fs : List Frame) (s : Session) : Prop where
  bufferSize : s.bufferSize = s₀.bufferSize
  growable : s.arena.growable = true
  fits : s.buffered.length ≤ s₀.bufferSize
  readCount : s.readCount = read.length
  wellFormed : ∀ f ∈ fs, f.WellFormed (Limits.ofBuffer s₀.bufferSize)
  bytes : read = framesBytes fs ++ s.buffered
  store : s.store = (executeAll (fs.map Frame.args) s₀.store).2
  calm : s₀.outlet.Calm → s.outlet.Calm
  stall : s.stall = s₀.stall
  flushes : s.outlet.flushes <:+ s₀.outlet.flushes
  unflushed : s.outlet.unflushed = []
  output : s.output = repliesBytes (fs.map Frame.args) s₀.store
  traffic : s.traffic = s₀.traffic.plus fs.length read.length s.output.length

/-- What is sent is counted. -/
theorem Midway.traffic_of_sends (h : s₀.Midway read fs s) (hs : s.Sends bytes store s') :
    s'.traffic = s₀.traffic.plus fs.length read.length s'.output.length := by
  rw [hs.traffic, h.traffic, hs.output, Traffic.plus_plus, List.length_append, Nat.add_zero,
    Nat.add_zero]

/-- Answering frames moves them out of the buffer. -/
theorem Midway.answered (h : s₀.Midway read fs s)
    (hgs : ∀ g ∈ gs, g.WellFormed (Limits.ofBuffer s₀.bufferSize)) {rest : Bytes}
    (hbuffered : s.buffered = framesBytes gs ++ rest)
    (hs : s.Sends (repliesBytes (gs.map Frame.args) s.store)
      (executeAll (gs.map Frame.args) s.store).2 s') :
    s₀.Midway read (fs ++ gs) { s'.counting gs.length with buffered := rest } where
  bufferSize := hs.bufferSize.trans h.bufferSize
  growable := hs.growable.trans h.growable
  fits := by
    have := h.fits
    rw [hbuffered, List.length_append] at this
    dsimp only
    omega
  readCount := hs.readCount.trans h.readCount
  wellFormed := List.forall_mem_append.2 ⟨h.wellFormed, hgs⟩
  bytes := by rw [h.bytes, hbuffered, framesBytes_append, List.append_assoc]
  store := by
    rw [List.map_append, executeAll_append_snd, ← h.store]
    exact hs.store
  calm := fun hcalm => hs.calm (h.calm hcalm)
  stall := hs.stall.trans h.stall
  flushes := hs.flushes.trans h.flushes
  unflushed := hs.unflushed h.unflushed
  output := by
    rw [List.map_append, repliesBytes_append, ← h.store, ← h.output]
    exact hs.output
  traffic := by
    have htraffic := congrArg (Traffic.plus · gs.length 0 0) (h.traffic_of_sends hs)
    rw [Traffic.plus_plus, ← List.length_append] at htraffic
    exact htraffic

/-- Reading a batch changes nothing but the arena. -/
theorem Midway.paid (h : s₀.Midway read fs s) (ha : a.growable = s.arena.growable) :
    s₀.Midway read fs { s with arena := a } :=
  ⟨h.bufferSize, ha.trans h.growable, h.fits, h.readCount, h.wellFormed, h.bytes, h.store, h.calm,
    h.stall, h.flushes, h.unflushed, h.output, h.traffic⟩

/-! ### How a session ends -/

/-- What is sent of a complaint from a send buffer of `size` bytes. -/
def report (size : Nat) (error : ParseError) : Bytes :=
  if Encoding.lineSize (complaint error).length ≤ size then
    Encoding.line Encoding.errorMark (complaint error)
  else []

/-- A session with buffers of `size` bytes finds the error at the start of the bytes. -/
def Refuses (size : Nat) (bs : Bytes) (error : ParseError) : Prop :=
  bs.Addressable ∧ ∃ a a' : Arena, a.growable = true ∧ a.used = 0 ∧
    Batch.read (Limits.ofBuffer size) a bs = (.error error, a')

/-- The session takes the frames in together. They are at the start of its buffer, and a look there
makes a batch of them. -/
structure TakesIn (s : Session) (batch : List Frame) : Prop where
  wellFormed : ∀ f ∈ batch, f.WellFormed (Limits.ofBuffer s.bufferSize)
  begins : framesBytes batch <+: s.buffered
  read : ∃ (r : Batch.Read) (a : Arena),
    Batch.read (Limits.ofBuffer s.bufferSize) s.arena.reset s.buffered = (.ok (some r), a) ∧
      r.batch.toList = (batch.map fun f => requestOf f.args) ∧
      r.consumed = (framesBytes batch).length

/-- The step that ends the session `s` leaves it as `s'` and gives the `cause`. It executes the
frames `part`. -/
inductive Ends (s : Session) : List Frame → Ending → Session → Prop
  /-- The session stops reading. -/
  | silent {cause : Ending} {s' : Session} (hcause : ∀ error, cause ≠ .malformed error)
      (hs : s.Sends [] s.store s') : s.Ends [] cause s'
  /-- It refuses the bytes in its buffer, and its client hears of it if there is room for the
  complaint. -/
  | refused {error : ParseError} {s' : Session}
      (hrefuses : Refuses s.bufferSize s.buffered error)
      (hs : s.Sends (report s.bufferSize error) s.store s') : s.Ends [] (.malformed error) s'
  /-- The stream fails while the complaint is sent. -/
  | interrupted {error : ParseError} {cause : Ending} {s' : Session}
      (hrefuses : Refuses s.bufferSize s.buffered error)
      (hs : s.Fails (Encoding.line Encoding.errorMark (complaint error)) cause s') :
      s.Ends [] cause s'
  /-- The stream fails while the replies to a batch are sent. -/
  | broken {batch part first : List Frame} {cause : Ending} {s' : Session}
      (htakes : s.TakesIn batch) (hne : part ≠ []) (hpart : part <+: batch)
      (hfirst : Interrupts first part)
      (hs : s.Breaks (repliesBytes (first.map Frame.args) s.store)
        (executeAll (part.map Frame.args) s.store).2 cause s') : s.Ends part cause s'

/-- The end of the stream ends the session. -/
theorem ends_finish (s : Session) : s.Ends [] s.finish.1 s.finish.2 := by
  have houtput : s.finish.2.output = s.output := by
    simp [Session.finish, Session.output, Event.sentBytes]
  refine .silent ?_ ⟨rfl, rfl, rfl, ?_, rfl, id, ?_, List.suffix_refl _, id,
    houtput.trans (List.append_nil _).symm, rfl⟩
  · intro error
    unfold Session.finish
    dsimp only
    split <;> rintro ⟨⟩
  · simp [Session.finish, Session.readCount, Event.readCount]
  · rw [stall, stall, houtput]
    rfl

/-- Malformed bytes end the session after a complaint, or without one if there is no room for it. -/
theorem reject_outcome (s : Session) (error : ParseError) :
    (s.reject error).1 = .malformed error ∧
        s.Sends (report s.bufferSize error) s.store (s.reject error).2 ∨
      s.Fails (Encoding.line Encoding.errorMark (complaint error)) (s.reject error).1
        (s.reject error).2 := by
  unfold Session.reject SendBuffer.putError SendBuffer.putLine
  by_cases hfits : Encoding.lineSize (complaint error).length ≤
      (SendBuffer.ofCapacity s.bufferSize).remaining
  · have hreport : report s.bufferSize error =
        Encoding.line Encoding.errorMark (complaint error) := if_pos hfits
    have hsend := s.send_outcome (Encoding.line Encoding.errorMark (complaint error))
    rw [SendBuffer.put_of_le hfits]
    simp only [SendBuffer.written, SendBuffer.ofCapacity, Array.toList_appendList,
      List.nil_append]
    generalize s.send _ = result at hsend ⊢
    cases hsend with
    | goes hs => exact .inl ⟨rfl, hreport ▸ hs⟩
    | ends hs => exact .inr hs
  · have hreport : report s.bufferSize error = [] := if_neg hfits
    rw [SendBuffer.put_of_lt (Nat.lt_of_not_le hfits)]
    exact .inl ⟨rfl, hreport ▸ .refl s⟩

theorem ends_reject (ha : a.growable = s.arena.growable)
    (hrefuses : Refuses s.bufferSize s.buffered error) :
    s.Ends [] (({ s with arena := a } : Session).reject error).1
      (({ s with arena := a } : Session).reject error).2 := by
  rcases ({ s with arena := a } : Session).reject_outcome error with ⟨hcause, hs⟩ | hs
  · rw [hcause]
    exact .refused hrefuses (hs.of_arena ha)
  · exact .interrupted hrefuses hs.of_arena

/-- What interrupts the requests of frames interrupts the frames. -/
theorem Interrupts.of_map {α β : Type} {f : α → β} {first : List β} {part : List α}
    (h : Interrupts first (part.map f)) : ∃ gs, first = gs.map f ∧ Interrupts gs part := by
  rcases h with rfl | ⟨last, hlast⟩
  · exact ⟨part, rfl, .inl rfl⟩
  · obtain ⟨gs, ends, rfl, rfl, hends⟩ := List.map_eq_append_iff.1 hlast
    obtain ⟨g, rfl, -⟩ := List.map_eq_singleton_iff.1 hends
    exact ⟨gs, rfl, .inr ⟨g, rfl⟩⟩

/-! ### A look at the buffer -/

/-- One look at the receive buffer: what is read from its start is answered. -/
def look (s : Session) : Except Ending Nat × Session :=
  let (result, a) := Batch.read (Limits.ofBuffer s.bufferSize) s.arena.reset s.buffered
  { s with arena := a }.respond result

/-- The buffer is looked at until there is nothing more to answer. -/
theorem answer_eq (s : Session) :
    s.answer =
      if s.buffered.isEmpty then (.ok (), s)
      else
        match s.look with
        | (.error cause, s') => (.error cause, s')
        | (.ok 0, s') => (.ok (), s')
        | (.ok (consumed + 1), s') =>
          { s' with buffered := s.buffered.drop (consumed + 1) }.answer := by
  rw [Session.answer]
  rfl

/-- A batch of frames from the start of the buffer is answered. -/
theorem Midway.batch (h : s₀.Midway read fs s) (htakes : s.TakesIn gs)
    (ha : a.growable = s.arena.growable) {b : Batch}
    (hb : b.toList = gs.map fun g => requestOf g.args) :
    Outcome
      (fun _ s' => s₀.Midway read (fs ++ gs)
        { s' with buffered := s.buffered.drop (framesBytes gs).length })
      (fun cause s' => ∃ part, s.Ends part cause s')
      (({ s with arena := a } : Session).answerBatch b) := by
  have hused : b.used = gs.length := by
    rw [← Slots.length_toList, hb, List.length_map]
  have hbatch := ({ s with arena := a } : Session).answerBatch_outcome b
  generalize ({ s with arena := a } : Session).answerBatch b = result at hbatch ⊢
  rw [hb, map_toList_requestOf] at hbatch
  cases hbatch with
  | goes hs =>
    obtain ⟨s₁, rfl, hs⟩ := hs
    obtain ⟨rest, hrest⟩ := htakes.begins
    have hdrop : s.buffered.drop (framesBytes gs).length = rest := by
      rw [← hrest, List.drop_left]
    rw [hdrop, hused]
    exact .goes ((h.paid ha).answered (h.bufferSize ▸ htakes.wellFormed) hrest.symm hs)
  | ends hs =>
    obtain ⟨done, replied, hne, hdone, hreplied, hs⟩ := hs
    obtain ⟨part, hpart, rfl⟩ := List.prefix_map_iff.1 hdone
    obtain ⟨first, rfl, hfirst⟩ := hreplied.of_map
    exact .ends ⟨part, .broken htakes (mt (congrArg _) hne) hpart hfirst (hs.of_arena ha)⟩

/-- **A look finds that no frame is complete, or answers some frames.** Then it takes a byte at
least, and no more than there are. -/
theorem Midway.look (hsize : s₀.bufferSize < 2 ^ 63) (h : s₀.Midway read fs s) :
    Outcome
      (fun consumed s' =>
        consumed = 0 ∧ s₀.Midway read fs s' ∧ Incomplete s'.buffered ∨
          0 < consumed ∧ consumed ≤ s.buffered.length ∧
            ∃ gs, s₀.Midway read (fs ++ gs) { s' with buffered := s.buffered.drop consumed })
      (fun cause s' => ∃ part, s.Ends part cause s') s.look := by
  have hbulk := Limits.maxBulk_ofBuffer s.bufferSize
  have hbs : s.buffered.Addressable := h.fits.trans_lt hsize
  obtain ⟨result, a, hread⟩ : ∃ result a, Batch.read (Limits.ofBuffer s.bufferSize)
      s.arena.reset s.buffered = (result, a) := ⟨_, _, rfl⟩
  have ha : a.growable = s.arena.reset.growable := Batch.growable_of_read hread
  rw [Session.look, hread]
  rcases result with error | _ | r
  · have hrefuses : Refuses s.bufferSize s.buffered error :=
      ⟨hbs, s.arena.reset, a, h.growable, rfl, hread⟩
    exact .ends ⟨[], ends_reject ha hrefuses⟩
  · exact .goes (.inl ⟨rfl, h.paid ha, Batch.incomplete_of_read_none hbulk hbs hread⟩)
  · obtain ⟨gs, hgs, hwf, hbegins, htoList, hconsumed⟩ :=
      Batch.frames_of_read_some hbulk hbs hread
    have hbatch := h.batch ⟨hwf, hbegins, r, a, hread, htoList, hconsumed⟩ ha htoList
    dsimp only [respond]
    generalize ({ s with arena := a } : Session).answerBatch r.batch = result at hbatch ⊢
    cases hbatch with
    | ends hs => exact .ends hs
    | goes hs =>
      rw [← hconsumed] at hs
      refine .goes (.inr ⟨?_, hconsumed ▸ hbegins.length_le, gs, hs⟩)
      rw [hconsumed]
      exact List.length_pos_iff.2 (framesBytes_ne_nil hgs)

/-! ### Reading -/

/-- The session has taken in bytes that a read gave. -/
def took (s : Session) (bytes : Bytes) : Session :=
  { s with
    traffic := { s.traffic with bytesRead := s.traffic.bytesRead + bytes.length }
    events := s.events.push (.received bytes.length)
    buffered := s.buffered ++ bytes }

theorem receive_eq (s : Session) (bytes : Bytes) : s.receive bytes = (s.took bytes).answer := rfl

/-- What a read gives goes behind what is in the buffer. -/
theorem Midway.took (h : s₀.Midway read fs s) {bytes : Bytes}
    (hroom : s.buffered.length + bytes.length ≤ s₀.bufferSize) :
    s₀.Midway (read ++ bytes) fs (s.took bytes) := by
  have houtput : (s.took bytes).output = s.output := by
    simp [Session.took, Session.output, Event.sentBytes]
  refine ⟨h.bufferSize, h.growable, ?_, ?_, h.wellFormed, ?_, h.store, h.calm, ?_, h.flushes,
    h.unflushed, houtput.trans h.output, ?_⟩
  · simpa [Session.took] using hroom
  · rw [List.length_append, ← h.readCount]
    simp [Session.took, Session.readCount, Event.readCount]
  · rw [h.bytes, List.append_assoc]
    rfl
  · rw [← h.stall, Session.stall, Session.stall, houtput]
    rfl
  · have htraffic := congrArg (Traffic.plus · 0 bytes.length 0) h.traffic
    rw [Traffic.plus_plus, ← List.length_append, ← houtput] at htraffic
    exact htraffic

/-! ### The beginning -/

/-- A session that has read nothing. -/
def fresh (sizes : Sizes) (script : Script) (store : Store) (traffic : Traffic) (a : Arena) :
    Session :=
  ⟨sizes.buffer, a, [], script.outlet, store, traffic.opened, #[]⟩

theorem midway_fresh {sizes : Sizes} {script : Script} {traffic : Traffic} {a : Arena}
    (hgrow : a.growable = true) (hfresh : script.outlet.unflushed = []) :
    (fresh sizes script store traffic a).Midway [] [] (fresh sizes script store traffic a) := by
  refine ⟨rfl, hgrow, Nat.zero_le _, rfl, by simp, rfl, rfl, id, rfl, List.suffix_refl _, hfresh,
    hfresh, ?_⟩
  have houtput : (fresh sizes script store traffic a).output = [] := hfresh
  rw [houtput]
  rfl

theorem stall_fresh {sizes : Sizes} {script : Script} {traffic : Traffic} {a : Arena}
    (hfresh : script.outlet.unflushed = []) :
    (fresh sizes script store traffic a).stall = Outlet.stall script.outlet.writes := by
  simp [stall, output, fresh, hfresh]

/-- A session that starts is a fresh one, with room for its buffers. -/
theorem fresh_of_start {sizes : Sizes} {script : Script} {traffic : Traffic}
    (h : start sizes script.outlet store traffic.opened = .ok s) :
    sizes.buffer < 2 ^ 63 ∧ ∃ a : Arena, a.growable = true ∧
      s = fresh sizes script store traffic a := by
  unfold start at h
  cases hbuffers : takeBuffers sizes.buffer with
  | error error =>
    rw [hbuffers] at h
    cases h
  | ok =>
    rw [hbuffers] at h
    cases harena : Arena.create true sizes.arena with
    | error error =>
      rw [harena] at h
      cases h
    | ok a =>
      rw [harena] at h
      cases h
      have hgrow : a.growable = true := by
        unfold Arena.create at harena
        split at harena <;> cases harena
        rfl
      exact ⟨Nat.lt_of_le_of_lt (takeBuffers_eq_ok_iff.1 hbuffers) (by decide), a, hgrow, rfl⟩

end RespStore.Session
