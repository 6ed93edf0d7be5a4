import RespStore.Proofs.Session.Stages

/-!
# RespStore.Proofs.Session.Stopping

Whatever stops a session. A client may send anything in any pieces, a stream may fail at any byte of
a read, a write or a flush, and the server may go down at any moment. However a session ends, it has
executed some requests from the start of what it read, in order and each of them once, and what its
stream took is a beginning of their replies (`run_stops`). Only after all of the replies may a
complaint about malformed bytes follow. Where malformed bytes are the reason of the end, all the
replies were sent, and the complaint as a whole if it fits the send buffer (`report`).

A session that was midway when its last step was made is `Stopped` after it (`Ends.stopped`), and
every run ends with such a step (`run_stopped`).
-/

namespace RespStore.Session

open Command Wire

variable {store : Store} {read bytes : Bytes} {fs part : List Frame} {s₀ s s' : Session}
  {cause : Ending} {error : ParseError}

/-! ### What is delivered -/

/-- The bytes are a beginning of `replies`, or all of them and a beginning of a line that tells the
client what is wrong with its bytes. -/
def Delivered (replies bytes : Bytes) : Prop :=
  bytes <+: replies ∨
    ∃ error part, bytes = replies ++ part ∧
      part <+: Encoding.line Encoding.errorMark (complaint error)

/-- The bytes are whole replies: those to some of the frames from the first on, or all of them and a
complaint. -/
def Whole (store : Store) (fs : List Frame) (bytes : Bytes) : Prop :=
  (∃ gs, gs <+: fs ∧ bytes = repliesBytes (gs.map Frame.args) store) ∨
    ∃ error, bytes = repliesBytes (fs.map Frame.args) store ++
      Encoding.line Encoding.errorMark (complaint error)

theorem delivered_of_prefix {replies : Bytes}
    (h : bytes <+: replies ++ Encoding.line Encoding.errorMark (complaint error)) :
    Delivered replies bytes := by
  rcases List.prefix_or_prefix_of_prefix h (List.prefix_append ..) with hpart | ⟨part, rfl⟩
  · exact .inl hpart
  · exact .inr ⟨error, part, rfl, (List.prefix_append_right_inj _).1 h⟩

theorem report_isPrefix (size : Nat) (error : ParseError) :
    report size error <+: Encoding.line Encoding.errorMark (complaint error) := by
  unfold report
  split
  · exact List.prefix_refl _
  · exact List.nil_prefix

/-! ### A session that is over -/

/-- The session has answered the frames `fs` and found the error behind them. -/
structure Reported (s₀ : Session) (read : Bytes) (fs : List Frame) (error : ParseError)
    (s : Session) : Prop where
  output : s.output = repliesBytes (fs.map Frame.args) s₀.store ++ report s₀.bufferSize error
  refused : ∃ rest, read = framesBytes fs ++ rest ∧ Refuses s₀.bufferSize rest error

/-- The session is over for the given reason. It has executed the frames `fs` at the start of the
bytes `read`, and their replies were sent as far as the session came. If the server went down, that
is everything, or the stream stalled behind it in a write, or the server went down during a flush
and whole replies were written. -/
structure Stopped (s₀ : Session) (read : Bytes) (fs : List Frame) (cause : Ending)
    (s : Session) : Prop where
  readCount : s.readCount = read.length
  wellFormed : ∀ f ∈ fs, f.WellFormed (Limits.ofBuffer s₀.bufferSize)
  begins : framesBytes fs <+: read
  store : s.store = (executeAll (fs.map Frame.args) s₀.store).2
  output : Delivered (repliesBytes (fs.map Frame.args) s₀.store) s.output
  reported : ∀ error, cause = .malformed error → s₀.Reported read fs error s
  stall : s.stall = s₀.stall
  stalled : cause = .shutdown → s.output = repliesBytes (fs.map Frame.args) s₀.store ∨
    s₀.stall = some s.output.length ∨
      .shutdown ∈ s₀.outlet.flushes ∧ Whole s₀.store fs s.output

theorem Midway.begins (h : s₀.Midway read fs s) : framesBytes fs <+: read := by
  rw [h.bytes]
  exact List.prefix_append ..

/-- A session may end before it finds malformed bytes. -/
theorem Midway.stopped (h : s₀.Midway read fs s) (hcause : ∀ error, cause ≠ .malformed error)
    (hs : s.Sends [] s.store s') : s₀.Stopped read fs cause s' := by
  have houtput : s'.output = repliesBytes (fs.map Frame.args) s₀.store := by
    rw [hs.output, List.append_nil, h.output]
  exact
    { readCount := hs.readCount.trans h.readCount
      wellFormed := h.wellFormed
      begins := h.begins
      store := hs.store.trans h.store
      output := .inl (houtput ▸ List.prefix_refl _)
      reported := fun error herror => absurd herror (hcause error)
      stall := hs.stall.trans h.stall
      stalled := fun _ => .inl houtput }

/-- A session that finds malformed bytes has answered everything before them. -/
theorem Midway.refused (h : s₀.Midway read fs s)
    (hrefuses : Refuses s.bufferSize s.buffered error)
    (hs : s.Sends (report s.bufferSize error) s.store s') :
    s₀.Stopped read fs (.malformed error) s' := by
  rw [h.bufferSize] at hrefuses hs
  have houtput : s'.output =
      repliesBytes (fs.map Frame.args) s₀.store ++ report s₀.bufferSize error := by
    rw [hs.output, h.output]
  refine
    { readCount := hs.readCount.trans h.readCount
      wellFormed := h.wellFormed
      begins := h.begins
      store := hs.store.trans h.store
      output := .inr ⟨error, _, houtput, report_isPrefix ..⟩
      reported := ?_
      stall := hs.stall.trans h.stall
      stalled := by rintro ⟨⟩ }
  rintro _ ⟨rfl⟩
  exact ⟨houtput, s.buffered, h.bytes, hrefuses⟩

/-- A stream may fail while a session sends what follows the replies that it has sent: replies to
more frames, or a complaint. -/
theorem Midway.broken (h : s₀.Midway read fs s) (hs : s.Breaks bytes store cause s')
    (hwf : ∀ f ∈ fs ++ part, f.WellFormed (Limits.ofBuffer s₀.bufferSize))
    (hbegins : framesBytes (fs ++ part) <+: read)
    (hstore : store = (executeAll ((fs ++ part).map Frame.args) s₀.store).2)
    (hdue : ∀ sent, sent <+: repliesBytes (fs.map Frame.args) s₀.store ++ bytes →
      Delivered (repliesBytes ((fs ++ part).map Frame.args) s₀.store) sent)
    (hwhole : Whole s₀.store (fs ++ part) (repliesBytes (fs.map Frame.args) s₀.store ++ bytes)) :
    s₀.Stopped read (fs ++ part) cause s' where
  readCount := hs.readCount.trans h.readCount
  wellFormed := hwf
  begins := hbegins
  store := hs.store_eq.trans hstore
  output := hdue _ (h.output ▸ hs.output)
  reported := fun error herror => absurd herror (hs.ofStream.ne_malformed error)
  stall := hs.stall.trans h.stall
  stalled := by
    intro hcause
    rcases hs.stall_of_shutdown hcause with hstall | ⟨hall, hflush⟩
    · exact .inr (.inl (h.stall.symm.trans hstall))
    · rw [h.output] at hall
      exact .inr (.inr ⟨h.flushes.subset hflush, hall ▸ hwhole⟩)

/-- Frames whose replies are being sent are the first ones of those that were executed. -/
theorem Interrupts.isPrefix {α : Type} {first done : List α} (h : Interrupts first done) :
    first <+: done := by
  rcases h with rfl | ⟨last, rfl⟩
  · exact List.prefix_refl _
  · exact List.prefix_append ..

/-- **The last step leaves a session stopped**, whatever it comes to. -/
theorem Midway.ends (h : s₀.Midway read fs s) (hends : s.Ends part cause s') :
    s₀.Stopped read (fs ++ part) cause s' := by
  cases hends with
  | silent hcause hs =>
    rw [List.append_nil]
    exact h.stopped hcause hs
  | refused hrefuses hs =>
    rw [List.append_nil]
    exact h.refused hrefuses hs
  | @interrupted error _ _ _ hs =>
    have hfs : fs ++ [] = fs := List.append_nil fs
    refine h.broken (hs.breaks (List.cons_ne_nil _ _)) (hfs.symm ▸ h.wellFormed)
      (hfs.symm ▸ h.begins) (hfs.symm ▸ h.store) ?_ ?_
    · intro sent hsent
      rw [hfs]
      exact delivered_of_prefix hsent
    · rw [hfs]
      exact .inr ⟨error, rfl⟩
  | @broken batch _ first _ _ htakes _ hpart hfirst hs =>
    have hwf := fun g hg => h.bufferSize ▸ htakes.wellFormed g (hpart.subset hg)
    have hreplies (gs : List Frame) : repliesBytes (fs.map Frame.args) s₀.store ++
        repliesBytes (gs.map Frame.args) s.store =
          repliesBytes ((fs ++ gs).map Frame.args) s₀.store := by
      rw [List.map_append, repliesBytes_append, ← h.store]
    refine h.broken hs (List.forall_mem_append.2 ⟨h.wellFormed, hwf⟩) ?_ ?_ ?_ ?_
    · rw [h.bytes, framesBytes_append, List.prefix_append_right_inj]
      exact (hpart.flatMap Frame.bytes).trans htakes.begins
    · rw [h.store, List.map_append, executeAll_append_snd]
    · intro sent hsent
      obtain ⟨more, rfl⟩ := hfirst.isPrefix
      refine .inl (hsent.trans ?_)
      rw [← hreplies (first ++ more), List.prefix_append_right_inj, List.map_append,
        repliesBytes_append]
      exact List.prefix_append ..
    · rw [hreplies]
      exact .inl ⟨fs ++ first, (List.prefix_append_right_inj fs).2 hfirst.isPrefix, rfl⟩

/-! ### Whole sessions -/

/-- **A run leaves a session that was fresh and stopped.** One that never starts stops at once. -/
theorem run_stopped (sizes : Sizes) {script : Script} (hfresh : script.outlet.unflushed = [])
    (store : Store) (traffic : Traffic) :
    ∃ a cause s read fs, read <+: script.arrivals.flatMap Arrival.bytes ∧
      (fresh sizes script store traffic a).Stopped read fs cause s ∧
      run sizes script store traffic = s.transcript cause := by
  have hunstarted (cause : Ending) (hcause : ∀ error, cause ≠ .malformed error) :
      ∃ a cause' s read fs, read <+: script.arrivals.flatMap Arrival.bytes ∧
        (fresh sizes script store traffic a).Stopped read fs cause' s ∧
        (⟨cause, [], script.outlet.unflushed, store, traffic.opened.closed⟩ : Transcript) =
          s.transcript cause' :=
    let a : Arena := ⟨Arena.minCapacity, 0, true, by decide, Nat.zero_le _⟩
    ⟨a, cause, _, [], [], List.nil_prefix, (midway_fresh (a := a) rfl hfresh).stopped hcause
      (.refl _), rfl⟩
  by_cases hdown : script.shutDown = true
  · rw [run, if_pos hdown]
    exact hunstarted .shutdown (by rintro _ ⟨⟩)
  · cases hstart : start sizes script.outlet store traffic.opened with
    | error error =>
      rw [run, if_neg hdown, hstart]
      exact hunstarted (.memory _) (by rintro _ ⟨⟩)
    | ok s =>
      have hfirst := sound_of_start hfresh hstart
      obtain ⟨hsize, a, -, rfl⟩ := fresh_of_start hstart
      obtain ⟨n, hn, hended⟩ := hfirst.exists_last hsize id
      rw [Function.iterate_succ_apply'] at hended
      obtain ⟨read, rest, fs, part, hstream, hmid, hends⟩ :=
        (hfirst.iterate hsize n).ends_of_next hsize hn hended
      refine ⟨a, _, _, read, fs ++ part, ⟨rest, hstream.symm⟩, hmid.ends hends, ?_⟩
      exact run_of_start (by simpa using hdown) hstart

/-- A whole session answers frames at the start of what it read, and if it ends over malformed bytes
it has answered everything before them. -/
theorem run_ends (sizes : Sizes) {script : Script} (hfresh : script.outlet.unflushed = [])
    (store : Store) (traffic : Traffic) :
    let t := run sizes script store traffic
    ∃ read fs, read <+: script.arrivals.flatMap Arrival.bytes ∧ read.length = t.readCount ∧
      (∀ f ∈ fs, f.WellFormed (Limits.ofBuffer sizes.buffer)) ∧ framesBytes fs <+: read ∧
      t.store = (executeAll (fs.map Frame.args) store).2 ∧
      Delivered (repliesBytes (fs.map Frame.args) store) t.output ∧
      ∀ error, t.cause = .malformed error →
        t.output = repliesBytes (fs.map Frame.args) store ++ report sizes.buffer error ∧
          ∃ rest, read = framesBytes fs ++ rest ∧ Refuses sizes.buffer rest error := by
  obtain ⟨a, cause, s, read, fs, hread, hstopped, ht⟩ := run_stopped sizes hfresh store traffic
  rw [ht]
  refine ⟨read, fs, hread, hstopped.readCount.symm, hstopped.wellFormed, hstopped.begins,
    hstopped.store, hstopped.output, ?_⟩
  intro error hcause
  have hreported := hstopped.reported error hcause
  exact ⟨hreported.output, hreported.refused⟩

/-- **However a session ends, it has executed requests from the start of what it read**, in order
and each of them once. The bytes that its stream took are a beginning of their replies; a complaint
comes only after all of these. What was read is a beginning of what the client sent, and the
requests are the first ones that it divides into. -/
theorem run_stops (sizes : Sizes) {script : Script} (hfresh : script.outlet.unflushed = [])
    (store : Store) (traffic : Traffic) :
    let t := run sizes script store traffic
    ∃ read frames rest, read <+: script.arrivals.flatMap Arrival.bytes ∧
      read.length = t.readCount ∧ Divides (Limits.ofBuffer sizes.buffer) read frames rest ∧
      ∃ m ≤ frames.length,
        let requests := (frames.take m).map Frame.args
        t.store = (executeAll requests store).2 ∧
          Delivered (repliesBytes requests store) t.output := by
  intro t
  obtain ⟨read, fs, hread, hcount, hfs, hbegins, hstore, houtput, -⟩ :=
    run_ends sizes hfresh store traffic
  obtain ⟨frames, rest, hdiv⟩ := exists_divides (Limits.ofBuffer sizes.buffer) read
  have hfirst := hdiv.isPrefix hfs hbegins
  refine ⟨read, frames, rest, hread, hcount, hdiv, fs.length, hfirst.length_le, ?_⟩
  rw [← List.prefix_iff_eq_take.1 hfirst]
  exact ⟨hstore, houtput⟩

/-- Three pings in two pieces, and a stream that refuses to take more in the middle of the second
reply. -/
theorem run_refused_pong :
    let sizes : Sizes := ⟨512, 1024⟩
    let arrivals := [Arrival.data (Bytes.ascii "PING\r\nPI"), .pending,
      .data (Bytes.ascii "NG\r\nPING\r\n")]
    let writes := [Attempt.pending, .ready 4, .pending, .ready 5, .ready 0]
    let script : Script := ⟨arrivals, ⟨writes, [.pending], []⟩, false⟩
    let t := run sizes script (Store.create 4) Traffic.none
    script.outlet.unflushed = [] ∧ t.output = Bytes.ascii "+PONG\r\n+P" ∧
      ∃ read frames rest, read <+: script.arrivals.flatMap Arrival.bytes ∧
        read.length = t.readCount ∧ Divides (Limits.ofBuffer sizes.buffer) read frames rest ∧
        ∃ m ≤ frames.length,
          let requests := (frames.take m).map Frame.args
          t.store = (executeAll requests (Store.create 4)).2 ∧
            Delivered (repliesBytes requests (Store.create 4)) t.output := by
  intro sizes arrivals writes script t
  have hfresh : script.outlet.unflushed = [] := rfl
  exact ⟨hfresh, by decide +kernel, run_stops sizes hfresh (Store.create 4) Traffic.none⟩

end RespStore.Session
