import RespStore.Proofs.Session.Midway

/-!
# RespStore.Proofs.Session.Stages

The read loop step by step. A session reads, looks at what it has read until no request is complete
there, and reads again, until it is over. `Stage.next` is one read or one look; made again and again
it comes to the end that `serve` comes to (`Sound.exists_ended`).

`Stage.Sound` is what the steps keep. Whenever the session reads, its buffer holds exactly what has
been read and not been answered, and that is no complete request (`Awaits`). There is one last stage
before the end (`Sound.exists_last`, `last_unique`), and the step from there says how the session
ends (`Sound.ends_of_next`).
-/

namespace RespStore

open Wire

/-! ### Stages -/

/-- Where a session stands between two steps, and what is still to arrive. -/
inductive Stage
  /-- It reads next. -/
  | reading (s : Session) (arrivals : List Arrival)
  /-- It looks at what it has read next. -/
  | answering (s : Session) (arrivals : List Arrival)
  /-- It has ended. -/
  | ended (cause : Ending) (s : Session)

namespace Stage

/-- What is still to arrive when `bytes` are left of an arrival. -/
def leave (bytes : Bytes) (arrivals : List Arrival) : List Arrival :=
  if bytes.isEmpty then arrivals else .data bytes :: arrivals

/-- The next step: a read, which gives as much as there is room for, or a look at the buffer. -/
def next : Stage → Stage
  | .reading s arrivals =>
    if s.isFull then .ended (.oversized s.bufferSize) s
    else
      match arrivals with
      | [] => .ended s.finish.1 s.finish.2
      | .pending :: rest => .reading s rest
      | .fail error :: _ => .ended (.stream error) s
      | .shutdown :: _ => .ended .shutdown s
      | .data bytes :: rest =>
        if bytes.isEmpty then .ended s.finish.1 s.finish.2
        else
          let room := s.bufferSize - s.buffered.length
          .answering (s.took (bytes.take room)) (leave (bytes.drop room) rest)
  | .answering s arrivals =>
    if s.buffered.isEmpty then .reading s arrivals
    else
      match s.look with
      | (.error cause, s') => .ended cause s'
      | (.ok 0, s') => .reading s' arrivals
      | (.ok (consumed + 1), s') =>
        .answering { s' with buffered := s.buffered.drop (consumed + 1) } arrivals
  | .ended cause s => .ended cause s

/-- The session at the stage. -/
def session : Stage → Session
  | .reading s _ => s
  | .answering s _ => s
  | .ended _ s => s

/-- The session has ended. -/
def IsOver : Stage → Prop
  | .ended _ _ => True
  | _ => False

/-- How a session ends that has come to the stage. -/
def outcome : Stage → Ending × Session
  | .reading s arrivals => s.serve arrivals
  | .answering s arrivals =>
    match s.answer with
    | (.ok (), s') => s'.serve arrivals
    | (.error cause, s') => (cause, s')
  | .ended cause s => (cause, s)

/-- The bytes and the arrivals to come count first, then the bytes in the buffer. -/
def weight : Stage → Nat × Nat
  | .reading _ arrivals => ((arrivals.map fun e => e.bytes.length + 1).sum + 1, 0)
  | .answering s arrivals =>
    ((arrivals.map fun e => e.bytes.length + 1).sum + 1, s.buffered.length + 1)
  | .ended _ _ => (0, 0)

@[simp] theorem outcome_reading (s : Session) (arrivals : List Arrival) :
    (reading s arrivals).outcome = s.serve arrivals := rfl

theorem outcome_answering (s : Session) (arrivals : List Arrival) :
    (answering s arrivals).outcome =
      match s.answer with
      | (.ok (), s') => s'.serve arrivals
      | (.error cause, s') => (cause, s') := rfl

theorem flatMap_leave (bytes : Bytes) (arrivals : List Arrival) :
    (leave bytes arrivals).flatMap Arrival.bytes = bytes ++ arrivals.flatMap Arrival.bytes := by
  unfold leave
  split
  · next hnil => rw [List.isEmpty_iff.1 hnil, List.nil_append]
  · rw [List.flatMap_cons, Arrival.bytes]

theorem IsOver.eq_ended {stage : Stage} (h : stage.IsOver) : ∃ cause s, stage = .ended cause s := by
  cases stage with
  | ended cause s => exact ⟨cause, s, rfl⟩
  | reading s arrivals => cases h
  | answering s arrivals => cases h

/-- What is over stays over. -/
theorem IsOver.iterate {stage : Stage} (h : stage.IsOver) (n : Nat) :
    (next^[n] stage).IsOver := by
  obtain ⟨cause, s, rfl⟩ := h.eq_ended
  rw [Function.iterate_fixed (rfl : next (.ended cause s) = .ended cause s)]
  trivial

/-- There is one last stage at most. -/
theorem last_unique {stage : Stage} {n m : Nat} (hn : ¬(next^[n] stage).IsOver)
    (hover : (next^[n + 1] stage).IsOver) (hm : ¬(next^[m] stage).IsOver)
    (hover' : (next^[m + 1] stage).IsOver) : n = m := by
  have hle {n m : Nat} (hover : (next^[n + 1] stage).IsOver) (hm : ¬(next^[m] stage).IsOver) :
      m ≤ n := by
    by_contra hlt
    obtain ⟨k, rfl⟩ := Nat.exists_eq_add_of_lt (Nat.lt_of_not_le hlt)
    refine hm ?_
    rw [Nat.add_right_comm, Nat.add_comm, Function.iterate_add_apply]
    exact hover.iterate k
  exact Nat.le_antisymm (hle hover' hn) (hle hover hm)

end Stage

namespace Session

open Command

variable {s₀ s s' : Session} {stream rest : Bytes} {arrivals : List Arrival} {stage : Stage}
  {cause : Ending}

/-- A look ends a session through its stream or through the client's bytes. -/
theorem look_error (h : s.look = (.error cause, s')) :
    cause.OfStream ∨ ∃ error, cause = .malformed error := respond_error h

/-- Feeding bytes needs no test for room: a session without room is over either way. -/
theorem serve_data {bytes : Bytes} (hne : bytes ≠ []) (s : Session) (rest : List Arrival) :
    s.serve (.data bytes :: rest) =
      match s.feed bytes with
      | (.ok (), s') => s'.serve rest
      | (.error cause, s') => (cause, s') := by
  have hempty : ¬bytes.isEmpty = true := by simpa using hne
  rw [serve]
  by_cases hfull : s.isFull = true
  · have hroom : s.bufferSize - s.buffered.length = 0 := by
      rw [isFull, beq_iff_eq] at hfull
      omega
    rw [if_pos hfull, feed, if_neg hempty]
    dsimp only
    rw [if_pos hroom]
  · exact (if_neg hfull).trans (if_neg hempty)

theorem serve_leave (s : Session) (bytes : Bytes) (rest : List Arrival) :
    s.serve (Stage.leave bytes rest) =
      match s.feed bytes with
      | (.ok (), s') => s'.serve rest
      | (.error cause, s') => (cause, s') := by
  unfold Stage.leave
  split
  · next hnil => rw [feed, if_pos hnil]
  · next hne => exact serve_data (by simpa using hne) s rest

/-! ### What the steps keep -/

/-- The session `s` began as `s₀`. Its client sends `stream`, of which `rest` is still to be read.
The session has answered each request that it has read, and its buffer holds the other bytes. -/
def Awaits (s₀ : Session) (stream rest : Bytes) (s : Session) : Prop :=
  ∃ read fs, stream = read ++ rest ∧ s₀.Midway read fs s ∧ Incomplete s.buffered

end Session

/-- What holds at every stage of a session that began as `s₀` and whose client sends `stream`. -/
def Stage.Sound (s₀ : Session) (stream : Bytes) : Stage → Prop
  | .reading s arrivals => s₀.Awaits stream (arrivals.flatMap Arrival.bytes) s
  | .answering s arrivals =>
    ∃ read fs, stream = read ++ arrivals.flatMap Arrival.bytes ∧ s₀.Midway read fs s
  | .ended cause s => ∀ size, cause = .oversized size →
    size = s₀.bufferSize ∧ s.buffered.length = size ∧ ∃ rest, s₀.Awaits stream rest s

namespace Stage.Sound

open Session

variable {s₀ s s' : Session} {stream : Bytes} {arrivals : List Arrival} {stage : Stage}
  {cause : Ending}

theorem ended_of_ne (h : ∀ size, cause ≠ .oversized size) : (Stage.ended cause s).Sound s₀ stream :=
  fun size hcause => absurd hcause (h size)

theorem finish_ne_oversized (s : Session) (size : Nat) : s.finish.1 ≠ .oversized size := by
  unfold Session.finish
  dsimp only
  split <;> rintro ⟨⟩

/-- A read ends the session and sends nothing, or the stream is not ready, or bytes are taken in for
which there is room. -/
theorem reading_cases (s : Session) (arrivals : List Arrival) :
    (∃ cause s', (Stage.reading s arrivals).next = .ended cause s' ∧ s.Ends [] cause s' ∧
        (∀ size, cause = .oversized size → s' = s ∧ s.isFull = true ∧ size = s.bufferSize) ∧
        (cause = .left ∨ cause = .cutOff → arrivals = [] ∨ ∃ rest, arrivals = .data [] :: rest)) ∨
      ¬s.isFull = true ∧
        ((∃ rest, arrivals = .pending :: rest ∧
            (Stage.reading s arrivals).next = .reading s rest) ∨
          ∃ bytes rest, arrivals = .data bytes :: rest ∧ bytes ≠ [] ∧
            (Stage.reading s arrivals).next =
              .answering (s.took (bytes.take (s.bufferSize - s.buffered.length)))
                (Stage.leave (bytes.drop (s.bufferSize - s.buffered.length)) rest)) := by
  have hfinish (size : Nat) (h : s.finish.1 = .oversized size) :
      s.finish.2 = s ∧ s.isFull = true ∧ size = s.bufferSize :=
    absurd h (finish_ne_oversized s size)
  rw [Stage.next.eq_def]
  dsimp only
  split
  · next hfull =>
    refine .inl ⟨_, s, rfl, .silent (by rintro _ ⟨⟩) (.refl s), ?_, ?_⟩
    · exact fun size h => ⟨rfl, hfull, (Ending.oversized.inj h).symm⟩
    · rintro (h | h) <;> cases h
  · next hroom =>
    cases arrivals with
    | nil => exact .inl ⟨_, _, rfl, ends_finish s, hfinish, fun _ => .inl rfl⟩
    | cons e rest =>
      cases e with
      | pending => exact .inr ⟨hroom, .inl ⟨rest, rfl, rfl⟩⟩
      | fail error =>
        refine .inl ⟨_, s, rfl, .silent (by rintro _ ⟨⟩) (.refl s), by rintro _ ⟨⟩, ?_⟩
        rintro (h | h) <;> cases h
      | shutdown =>
        refine .inl ⟨_, s, rfl, .silent (by rintro _ ⟨⟩) (.refl s), by rintro _ ⟨⟩, ?_⟩
        rintro (h | h) <;> cases h
      | data bytes =>
        dsimp only
        split
        · next hnil =>
          exact .inl ⟨_, _, rfl, ends_finish s, hfinish,
            fun _ => .inr ⟨rest, by rw [List.isEmpty_iff.1 hnil]⟩⟩
        · next hne =>
          exact .inr ⟨hroom, .inr ⟨bytes, rest, rfl, by simpa using hne, rfl⟩⟩

/-- A read takes in something, and leaves the session looking at it. -/
theorem next_reading (h : (Stage.reading s arrivals).Sound s₀ stream) :
    (Stage.reading s arrivals).next.Sound s₀ stream := by
  obtain ⟨read, fs, hstream, hmid, hnone⟩ := h
  rcases reading_cases s arrivals with ⟨cause, s', hnext, -, hfull, -⟩ |
    ⟨-, ⟨rest, rfl, hnext⟩ | ⟨bytes, rest, rfl, -, hnext⟩⟩
  · rw [hnext]
    intro size hcause
    obtain ⟨rfl, hfull, rfl⟩ := hfull size hcause
    rw [isFull, beq_iff_eq] at hfull
    exact ⟨hmid.bufferSize, hfull, _, read, fs, hstream, hmid, hnone⟩
  · rw [hnext]
    exact ⟨read, fs, hstream, hmid, hnone⟩
  · rw [hnext]
    generalize hsplit : s.bufferSize - s.buffered.length = room
    have hroom : s.buffered.length + (bytes.take room).length ≤ s₀.bufferSize := by
      have := hmid.fits
      have := hmid.bufferSize
      rw [List.length_take]
      omega
    refine ⟨_, fs, ?_, hmid.took hroom⟩
    -- what the read gives and what it leaves make up the arrival
    rw [flatMap_leave, hstream, List.flatMap_cons, Arrival.bytes, List.append_assoc,
      ← List.append_assoc (bytes.take room), List.take_append_drop]

/-- A look ends the session, leaves it reading, or takes requests from its buffer. -/
theorem answering_cases (hsize : s₀.bufferSize < 2 ^ 63) {read : Bytes} {fs : List Frame}
    (h : s₀.Midway read fs s) (arrivals : List Arrival) :
    (∃ cause s' part, (Stage.answering s arrivals).next = .ended cause s' ∧
        s.Ends part cause s' ∧ ∀ size, cause ≠ .oversized size) ∨
      (∃ s', (Stage.answering s arrivals).next = .reading s' arrivals ∧
        s₀.Midway read fs s' ∧ Incomplete s'.buffered) ∨
      ∃ consumed s' gs, (Stage.answering s arrivals).next = .answering s' arrivals ∧
        1 ≤ consumed ∧ consumed ≤ s.buffered.length ∧
        s'.buffered = s.buffered.drop consumed ∧ s₀.Midway read (fs ++ gs) s' := by
  rw [Stage.next.eq_def]
  dsimp only
  split
  · next hnil => exact .inr (.inl ⟨s, rfl, h, List.isEmpty_iff.1 hnil ▸ incomplete_nil⟩)
  · have hlook := h.look hsize
    generalize hresult : s.look = result at hlook
    cases hlook with
    | ends hs =>
      obtain ⟨part, hs⟩ := hs
      refine .inl ⟨_, _, part, rfl, hs, ?_⟩
      rintro size rfl
      rcases look_error hresult with hcause | ⟨_, hcause⟩
      · exact hcause
      · cases hcause
    | @goes consumed s' hs =>
      rcases hs with ⟨rfl, hs, hnone⟩ | ⟨hpos, hle, gs, hs⟩
      · exact .inr (.inl ⟨s', rfl, hs, hnone⟩)
      · obtain ⟨k, rfl⟩ := Nat.exists_eq_add_one.2 hpos
        exact .inr (.inr ⟨k + 1, _, gs, rfl, hpos, hle, rfl, hs⟩)

/-- A look goes on from what was read, and leaves it as it is. -/
theorem next_answering (hsize : s₀.bufferSize < 2 ^ 63)
    (h : (Stage.answering s arrivals).Sound s₀ stream) :
    (Stage.answering s arrivals).next.Sound s₀ stream := by
  obtain ⟨read, fs, hstream, hmid⟩ := h
  rcases answering_cases hsize hmid arrivals with
    ⟨cause, s', _, hnext, -, hcause⟩ | ⟨s', hnext, hs, hnone⟩ | ⟨_, s', gs, hnext, -, -, -, hs⟩
  · rw [hnext]
    exact ended_of_ne hcause
  · rw [hnext]
    exact ⟨read, fs, hstream, hs, hnone⟩
  · rw [hnext]
    exact ⟨read, fs ++ gs, hstream, hs⟩

/-- **Every step keeps it.** -/
theorem next (hsize : s₀.bufferSize < 2 ^ 63) (h : stage.Sound s₀ stream) :
    stage.next.Sound s₀ stream := by
  cases stage with
  | reading s arrivals => exact h.next_reading
  | answering s arrivals => exact h.next_answering hsize
  | ended cause s => exact h

/-- Every number of steps keeps it. -/
theorem iterate (hsize : s₀.bufferSize < 2 ^ 63) (h : stage.Sound s₀ stream) (n : Nat) :
    (Stage.next^[n] stage).Sound s₀ stream := by
  induction n with
  | zero => exact h
  | succ n ih =>
    rw [Function.iterate_succ_apply']
    exact ih.next hsize

/-! ### Where the steps lead -/

/-- A step changes nothing about how the session ends. -/
theorem outcome_next (h : stage.Sound s₀ stream) : stage.next.outcome = stage.outcome := by
  cases stage with
  | ended cause s => rfl
  | answering s arrivals =>
    rw [outcome_answering, answer_eq, Stage.next.eq_def]
    dsimp only
    split
    · rfl
    · obtain ⟨result, s'⟩ := s.look
      rcases result with cause | _ | consumed <;> rfl
  | reading s arrivals =>
    obtain ⟨read, fs, -, hmid, -⟩ := h
    rw [outcome_reading, Session.serve.eq_def, Stage.next.eq_def]
    dsimp only
    split
    · rfl
    · next hfull =>
      cases arrivals with
      | nil => rfl
      | cons e rest =>
        cases e with
        | pending => rfl
        | fail error => rfl
        | shutdown => rfl
        | data bytes =>
          dsimp only
          split
          · rfl
          · next hne =>
            have hroom : s.bufferSize - s.buffered.length ≠ 0 := by
              have := hmid.fits
              have := hmid.bufferSize
              rw [isFull, beq_iff_eq] at hfull
              omega
            -- `feed` goes on with the rest of the arrival, `next` leaves it as an arrival
            rw [feed, if_neg hne]
            dsimp only
            rw [if_neg hroom, outcome_answering, ← receive_eq]
            obtain ⟨result, s'⟩ := s.receive (bytes.take (s.bufferSize - s.buffered.length))
            rcases result with cause | _
            · rfl
            · exact serve_leave s' _ rest

/-- A read makes less of what is to arrive, and a look of what is in the buffer. -/
theorem weight_next (hsize : s₀.bufferSize < 2 ^ 63) (h : stage.Sound s₀ stream)
    (hon : ¬stage.IsOver) : Prod.Lex (· < ·) (· < ·) stage.next.weight stage.weight := by
  cases stage with
  | ended cause s => exact absurd trivial hon
  | answering s arrivals =>
    obtain ⟨read, fs, -, hmid⟩ := h
    rcases answering_cases hsize hmid arrivals with
      ⟨cause, s', _, hnext, -⟩ | ⟨s', hnext, -⟩ | ⟨consumed, s', gs, hnext, hpos, hle, hrest, -⟩
    · rw [hnext]
      exact .left _ _ (Nat.succ_pos _)
    · rw [hnext]
      exact .right _ (Nat.succ_pos _)
    · have hshorter : s'.buffered.length < s.buffered.length := by
        rw [hrest, List.length_drop]
        omega
      rw [hnext]
      exact .right _ (Nat.succ_lt_succ hshorter)
  | reading s arrivals =>
    obtain ⟨read, fs, -, hmid, -⟩ := h
    rcases reading_cases s arrivals with ⟨cause, s', hnext, -⟩ |
      ⟨hroom, ⟨rest, rfl, hnext⟩ | ⟨bytes, rest, rfl, hne, hnext⟩⟩
    · rw [hnext]
      exact .left _ _ (Nat.succ_pos _)
    · rw [hnext]
      exact .left _ _ (by simp [Arrival.bytes])
    · have hpos := List.length_pos_iff.2 hne
      have := hmid.fits
      have := hmid.bufferSize
      rw [isFull, beq_iff_eq] at hroom
      rw [hnext]
      refine .left _ _ ?_
      unfold Stage.leave
      split
      · simp [Arrival.bytes]
      · simp [Arrival.bytes]
        omega

/-- **The steps come to a last stage**, and the next one is the end that the session has. -/
theorem exists_last (hsize : s₀.bufferSize < 2 ^ 63) {stage : Stage} (h : stage.Sound s₀ stream)
    (hon : ¬stage.IsOver) :
    ∃ n, ¬(Stage.next^[n] stage).IsOver ∧
      Stage.next^[n + 1] stage = .ended stage.outcome.1 stage.outcome.2 := by
  -- the recursion is on the weight of the stage
  by_cases hover : stage.next.IsOver
  · obtain ⟨cause, s, hended⟩ := hover.eq_ended
    refine ⟨0, hon, ?_⟩
    rw [← h.outcome_next, hended]
    exact hended
  · obtain ⟨n, hn, hended⟩ := exists_last hsize (h.next hsize) hover
    rw [h.outcome_next] at hended
    exact ⟨n + 1, hn, hended⟩
termination_by stage.weight
decreasing_by exact h.weight_next hsize hon

/-- **The steps come to an end**, and it is the one that the session has. -/
theorem exists_ended (hsize : s₀.bufferSize < 2 ^ 63) (h : stage.Sound s₀ stream) :
    ∃ n, Stage.next^[n] stage = .ended stage.outcome.1 stage.outcome.2 := by
  by_cases hover : stage.IsOver
  · obtain ⟨cause, s, rfl⟩ := hover.eq_ended
    exact ⟨0, rfl⟩
  · obtain ⟨n, -, hended⟩ := h.exists_last hsize hover
    exact ⟨n + 1, hended⟩

/-- **The step from the last stage ends the session**, which has answered some of what it had read
until then. -/
theorem ends_of_next (hsize : s₀.bufferSize < 2 ^ 63) (h : stage.Sound s₀ stream)
    (hon : ¬stage.IsOver) (hnext : stage.next = .ended cause s') :
    ∃ read rest fs part, stream = read ++ rest ∧ s₀.Midway read fs stage.session ∧
      stage.session.Ends part cause s' := by
  cases stage with
  | ended cause s => exact absurd trivial hon
  | answering s arrivals =>
    obtain ⟨read, fs, hstream, hmid⟩ := h
    rcases answering_cases hsize hmid arrivals with
      ⟨_, _, part, hended, hs, -⟩ | ⟨_, hreading, -⟩ | ⟨_, _, _, hanswering, -⟩
    · rw [hended] at hnext
      cases hnext
      exact ⟨read, _, fs, part, hstream, hmid, hs⟩
    · rw [hreading] at hnext
      cases hnext
    · rw [hanswering] at hnext
      cases hnext
  | reading s arrivals =>
    obtain ⟨read, fs, hstream, hmid, -⟩ := h
    rcases reading_cases s arrivals with ⟨_, _, hended, hs, -⟩ |
      ⟨-, ⟨_, -, hreading⟩ | ⟨_, _, -, -, hanswering⟩⟩
    · rw [hended] at hnext
      cases hnext
      exact ⟨read, _, fs, [], hstream, hmid, hs⟩
    · rw [hreading] at hnext
      cases hnext
    · rw [hanswering] at hnext
      cases hnext

end Stage.Sound

/-! ### Whole sessions -/

namespace Session

variable {sizes : Sizes} {script : Script} {store : Store} {traffic : Traffic} {s : Session}

/-- A session that starts awaits all that its client sends. -/
theorem sound_of_start (hfresh : script.outlet.unflushed = [])
    (hstart : start sizes script.outlet store traffic.opened = .ok s) :
    (Stage.reading s script.arrivals).Sound s (script.arrivals.flatMap Arrival.bytes) := by
  obtain ⟨-, a, hgrow, rfl⟩ := fresh_of_start hstart
  exact ⟨[], [], rfl, midway_fresh hgrow hfresh, incomplete_nil⟩

/-- A run is what its session comes to. -/
theorem run_of_start (hup : script.shutDown = false)
    (hstart : start sizes script.outlet store traffic.opened = .ok s) :
    run sizes script store traffic =
      (s.serve script.arrivals).2.transcript (s.serve script.arrivals).1 := by
  simp only [run, hup, hstart, Bool.false_eq_true, if_false]

end Session
end RespStore
