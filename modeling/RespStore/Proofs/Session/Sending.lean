import Mathlib.Data.List.Basic
import RespStore.Proofs.Command.Sizes
import RespStore.Proofs.Session.Outlet
import RespStore.Session.Run

/-!
# RespStore.Proofs.Session.Sending

Replies on their way to the client. `Session.output` collects what the stream of a session has
taken. A step that has bytes to send comes to one of two things (`Outcome`): the stream takes all of
them in the end, however little it takes at a time, and the session goes on (`Sends`); or it takes a
beginning of them and the session is over (`Breaks`). A stream without faults (`Outlet.Calm`) does
not break.

A step may send in several calls, each of them written and flushed. Where a session breaks, the
calls before the last were sent, and the last one `Fails`: a beginning of it was taken and did not
reach the client. The server goes down during a write only at the one byte where the stream is to
stall (`Session.stall`), which stays where it is all the while.

A reply may wait in the send buffer, be sent with others or be sent by itself, so a step is
described by what was sent and what is still waiting, one after the other (`reply_outcome`,
`execute_outcome`). A batch leaves nothing waiting: it is answered with the replies of its requests
in order. Where it breaks, what it was sending are the replies to the requests that were executed,
or to all of these but the last (`answerBatch_outcome`).
-/

namespace RespStore

/-- The bytes that reached the client in an event. -/
def Event.sentBytes : Event → Bytes
  | .received _ => []
  | .sent bytes => bytes

/-- The number of bytes that a read gave in an event. -/
def Event.readCount : Event → Nat
  | .received count => count
  | .sent _ => 0

/-- The bytes that the stream took in the whole session. -/
def Transcript.output (t : Transcript) : Bytes := t.events.flatMap Event.sentBytes ++ t.unflushed

/-- The number of bytes that were read in the whole session. -/
def Transcript.readCount (t : Transcript) : Nat := (t.events.map Event.readCount).sum

namespace Traffic

/-- The counts after so many more commands, and so many more bytes read and written. -/
def plus (t : Traffic) (commands read written : Nat) : Traffic :=
  { t with
    commands := t.commands + commands
    bytesRead := t.bytesRead + read
    bytesWritten := t.bytesWritten + written }

theorem plus_plus (t : Traffic) (commands read written commands' read' written' : Nat) :
    (t.plus commands read written).plus commands' read' written' =
      t.plus (commands + commands') (read + read') (written + written') := by
  simp [plus, Nat.add_assoc]

end Traffic

/-- No reply is empty on the wire. -/
theorem Reply.encode_ne_nil (r : Reply) : r.encode ≠ [] := by
  cases r with
  | canned reply => cases reply <;> decide
  | value payload => exact List.cons_ne_nil _ _
  | refusal cause => exact List.cons_ne_nil _ _

/-- The replies to some requests on the wire, one after another. -/
def Command.repliesBytes (requests : List (List Bytes)) (store : Store) : Bytes :=
  (Command.executeAll requests store).1.flatMap Reply.encode

namespace Command

@[simp] theorem repliesBytes_nil (store : Store) : repliesBytes [] store = [] := rfl

theorem repliesBytes_cons (request : List Bytes) (rest : List (List Bytes)) (store : Store) :
    repliesBytes (request :: rest) store =
      (execute request store).1.encode ++ repliesBytes rest (execute request store).2 :=
  List.flatMap_cons

theorem executeAll_append_snd (first rest : List (List Bytes)) (store : Store) :
    (executeAll (first ++ rest) store).2 =
      (executeAll rest (executeAll first store).2).2 := by
  induction first generalizing store with
  | nil => rfl
  | cons request first ih => exact ih (execute request store).2

theorem executeAll_append_fst (first rest : List (List Bytes)) (store : Store) :
    (executeAll (first ++ rest) store).1 =
      (executeAll first store).1 ++ (executeAll rest (executeAll first store).2).1 := by
  induction first generalizing store with
  | nil => rfl
  | cons request first ih => exact congrArg (_ :: ·) (ih (execute request store).2)

/-- Replies do not depend on which requests were executed together. -/
theorem repliesBytes_append (first rest : List (List Bytes)) (store : Store) :
    repliesBytes (first ++ rest) store =
      repliesBytes first store ++ repliesBytes rest (executeAll first store).2 := by
  rw [repliesBytes, executeAll_append_fst, List.flatMap_append]
  rfl

end Command

namespace Session

open Command

variable {s s' s₁ s₂ : Session} {bytes more : Bytes} {store store₁ store₂ : Store} {cause : Ending}

/-- The bytes that the stream has taken since the session began. -/
def output (s : Session) : Bytes :=
  s.events.toList.flatMap Event.sentBytes ++ s.outlet.unflushed

/-- The bytes that have reached the client since the session began. -/
def flushed (s : Session) : Bytes := s.events.toList.flatMap Event.sentBytes

theorem output_eq (s : Session) : s.output = s.flushed ++ s.outlet.unflushed := rfl

theorem output_eq_flushed (h : s.outlet.unflushed = []) : s.output = s.flushed := by
  rw [output_eq, h, List.append_nil]

/-- The number of bytes that were read since the session began. -/
def readCount (s : Session) : Nat := (s.events.toList.map Event.readCount).sum

/-- How many bytes the stream takes since the session began before it stalls in a write, if it is to
stall at all. -/
def stall (s : Session) : Option Nat := (Outlet.stall s.outlet.writes).map (s.output.length + ·)

theorem stall_of_took (houtput : s'.output = s.output ++ bytes)
    (hstall : Outlet.stall s.outlet.writes =
      (Outlet.stall s'.outlet.writes).map (bytes.length + ·)) :
    s'.stall = s.stall := by
  rw [stall, stall, hstall, Option.map_map, houtput]
  simp [Function.comp_def, Nat.add_assoc]

/-- A session has not come to the byte at which its stream is to stall. -/
theorem length_output_le {n : Nat} (h : s.stall = some n) : s.output.length ≤ n := by
  obtain ⟨_, -, rfl⟩ := Option.map_eq_some_iff.1 h
  exact Nat.le_add_right ..

/-- The session `s'` is `s` after its client got `bytes` and its store became `store`. -/
structure Sends (s : Session) (bytes : Bytes) (store : Store) (s' : Session) : Prop where
  bufferSize : s'.bufferSize = s.bufferSize
  growable : s'.arena.growable = s.arena.growable
  buffered : s'.buffered = s.buffered
  readCount : s'.readCount = s.readCount
  store : s'.store = store
  calm : s.outlet.Calm → s'.outlet.Calm
  stall : s'.stall = s.stall
  flushes : s'.outlet.flushes <:+ s.outlet.flushes
  unflushed : s.outlet.unflushed = [] → s'.outlet.unflushed = []
  output : s'.output = s.output ++ bytes
  traffic : s'.traffic = s.traffic.plus 0 0 bytes.length

theorem Sends.refl (s : Session) : s.Sends [] s.store s :=
  ⟨rfl, rfl, rfl, rfl, rfl, id, rfl, List.suffix_refl _, id, (List.append_nil _).symm, rfl⟩

theorem Sends.trans (h₁ : s.Sends bytes store₁ s₁) (h₂ : s₁.Sends more store₂ s₂) :
    s.Sends (bytes ++ more) store₂ s₂ where
  bufferSize := h₂.bufferSize.trans h₁.bufferSize
  growable := h₂.growable.trans h₁.growable
  buffered := h₂.buffered.trans h₁.buffered
  readCount := h₂.readCount.trans h₁.readCount
  store := h₂.store
  calm := fun h => h₂.calm (h₁.calm h)
  stall := h₂.stall.trans h₁.stall
  flushes := h₂.flushes.trans h₁.flushes
  unflushed := fun h => h₂.unflushed (h₁.unflushed h)
  output := by rw [h₂.output, h₁.output, List.append_assoc]
  traffic := by rw [h₂.traffic, h₁.traffic, Traffic.plus_plus, List.length_append]

/-- What is sent does not depend on the store that the session had. -/
theorem Sends.of_store (h : ({ s with store := store₁ } : Session).Sends bytes store s₁) :
    s.Sends bytes store s₁ :=
  ⟨h.bufferSize, h.growable, h.buffered, h.readCount, h.store, h.calm, h.stall, h.flushes,
    h.unflushed, h.output, h.traffic⟩

/-- Nor does it depend on the arena. -/
theorem Sends.of_arena {a : Arena} (ha : a.growable = s.arena.growable)
    (h : ({ s with arena := a } : Session).Sends bytes store s₁) : s.Sends bytes store s₁ :=
  ⟨h.bufferSize, h.growable.trans ha, h.buffered, h.readCount, h.store, h.calm, h.stall, h.flushes,
    h.unflushed, h.output, h.traffic⟩

/-- The session `s'` is over, after the stream of `s` failed while the bytes `call` were sent. A
beginning of them was taken and did not reach the client. That is the `cause` of its end. If the
server went down, the stream stalled, or it had taken the whole call and was to be flushed. -/
structure Fails (s : Session) (call : Bytes) (cause : Ending) (s' : Session) : Prop where
  calm : ¬s.outlet.Calm
  ofStream : cause.OfStream
  took : ∃ taken, taken <+: call ∧ s.outlet.Took taken s'.outlet ∧
    (cause = .shutdown → Outlet.stall s'.outlet.writes = some 0 ∨
      taken = call ∧ .shutdown ∈ s.outlet.flushes)
  events : s'.events = s.events
  store : s'.store = s.store
  traffic : s'.traffic = s.traffic

theorem Fails.readCount (h : s.Fails bytes cause s') : s'.readCount = s.readCount := by
  rw [Session.readCount, Session.readCount, h.events]

theorem Fails.flushed (h : s.Fails bytes cause s') : s'.flushed = s.flushed := by
  rw [Session.flushed, Session.flushed, h.events]

theorem Fails.stall (h : s.Fails bytes cause s') : s'.stall = s.stall := by
  obtain ⟨taken, -, htook, -⟩ := h.took
  refine stall_of_took ?_ htook.stall
  rw [output_eq, output_eq, h.flushed, htook.unflushed, List.append_assoc]

theorem Fails.of_arena {a : Arena} (h : ({ s with arena := a } : Session).Fails bytes cause s') :
    s.Fails bytes cause s' :=
  ⟨h.calm, h.ofStream, h.took, h.events, h.store, h.traffic⟩

/-- Where the server goes down during a call, the stream stalls after the last byte that it took, or
it has taken the whole call. -/
theorem Fails.stall_of_shutdown (h : s.Fails bytes cause s') (hcause : cause = .shutdown) :
    s.stall = some s'.output.length ∨
      s'.output = s.output ++ bytes ∧ .shutdown ∈ s.outlet.flushes := by
  obtain ⟨taken, -, htook, hdown⟩ := h.took
  refine (hdown hcause).imp (fun hstall => ?_) fun ⟨hwhole, hflush⟩ => ⟨?_, hflush⟩
  · rw [← h.stall, Session.stall, hstall]
    rfl
  · rw [output_eq, output_eq, h.flushed, htook.unflushed, hwhole, List.append_assoc]

/-- The session `s'` is over, after its store became `store` and its stream failed while `bytes`
were sent. They went out in several calls, and the last of them failed. -/
def Breaks (s : Session) (bytes : Bytes) (store : Store) (cause : Ending) (s' : Session) : Prop :=
  ∃ sent call s₁, sent ++ call = bytes ∧ call ≠ [] ∧ s.Sends sent store s₁ ∧ s₁.Fails call cause s'

theorem Fails.breaks (h : s.Fails bytes cause s') (hne : bytes ≠ []) :
    s.Breaks bytes s.store cause s' :=
  ⟨[], bytes, s, rfl, hne, .refl s, h⟩

theorem Breaks.not_calm (h : s.Breaks bytes store cause s') : ¬s.outlet.Calm := by
  obtain ⟨_, _, _, -, -, hs, hfails⟩ := h
  exact mt hs.calm hfails.calm

theorem Breaks.ofStream (h : s.Breaks bytes store cause s') : cause.OfStream := by
  obtain ⟨_, _, _, -, -, -, hfails⟩ := h
  exact hfails.ofStream

theorem Breaks.ne_nil (h : s.Breaks bytes store cause s') : bytes ≠ [] := by
  obtain ⟨_, _, _, rfl, hne, -⟩ := h
  exact List.append_ne_nil_of_right_ne_nil _ hne

theorem Breaks.readCount (h : s.Breaks bytes store cause s') : s'.readCount = s.readCount := by
  obtain ⟨_, _, _, -, -, hs, hfails⟩ := h
  exact hfails.readCount.trans hs.readCount

theorem Breaks.store_eq (h : s.Breaks bytes store cause s') : s'.store = store := by
  obtain ⟨_, _, _, -, -, hs, hfails⟩ := h
  exact hfails.store.trans hs.store

theorem Breaks.stall (h : s.Breaks bytes store cause s') : s'.stall = s.stall := by
  obtain ⟨_, _, _, -, -, hs, hfails⟩ := h
  exact hfails.stall.trans hs.stall

/-- What the stream took is a beginning of what there was to send. -/
theorem Breaks.output (h : s.Breaks bytes store cause s') : s'.output <+: s.output ++ bytes := by
  obtain ⟨sent, call, s₁, rfl, -, hs, hfails⟩ := h
  obtain ⟨taken, htaken, htook, -⟩ := hfails.took
  have houtput : s'.output = s.output ++ (sent ++ taken) := by
    rw [output_eq, hfails.flushed, htook.unflushed, ← List.append_assoc, ← output_eq, hs.output,
      List.append_assoc]
  rw [houtput, List.prefix_append_right_inj, List.prefix_append_right_inj]
  exact htaken

/-- Of what there was to send, everything up to the last call reached the client, and the stream
took a beginning of that call. -/
theorem Breaks.last_call (h : s.Breaks bytes store cause s') (hempty : s.outlet.unflushed = []) :
    ∃ call, call ≠ [] ∧ s'.flushed ++ call = s.output ++ bytes ∧ s'.outlet.unflushed <+: call := by
  obtain ⟨sent, call, s₁, rfl, hne, hs, hfails⟩ := h
  obtain ⟨taken, htaken, htook, -⟩ := hfails.took
  have hsent := hs.unflushed hempty
  refine ⟨call, hne, ?_, ?_⟩
  · rw [hfails.flushed, ← output_eq_flushed hsent, hs.output, List.append_assoc]
  · rw [htook.unflushed, hsent]
    exact htaken

/-- Where the server goes down, the stream stalls after the last byte that it took, or it has taken
whatever there was to send in the calls that were made. -/
theorem Breaks.stall_of_shutdown (h : s.Breaks bytes store cause s') (hcause : cause = .shutdown) :
    s.stall = some s'.output.length ∨
      s'.output = s.output ++ bytes ∧ .shutdown ∈ s.outlet.flushes := by
  obtain ⟨sent, call, s₁, rfl, -, hs, hfails⟩ := h
  refine (hfails.stall_of_shutdown hcause).imp (fun hstall => ?_) fun ⟨hwhole, hflush⟩ => ⟨?_, ?_⟩
  · exact hs.stall.symm.trans hstall
  · rw [hwhole, hs.output, List.append_assoc]
  · exact hs.flushes.subset hflush

/-- A stream may fail after it has taken some bytes. -/
theorem Sends.breaks (h₁ : s.Sends bytes store₁ s₁) (h₂ : s₁.Breaks more store₂ cause s') :
    s.Breaks (bytes ++ more) store₂ cause s' := by
  obtain ⟨sent, call, s₂, rfl, hne, hs, hfails⟩ := h₂
  exact ⟨bytes ++ sent, call, s₂, List.append_assoc .., hne, h₁.trans hs, hfails⟩

theorem Breaks.of_store (h : ({ s with store := store₁ } : Session).Breaks bytes store cause s') :
    s.Breaks bytes store cause s' := by
  obtain ⟨sent, call, s₁, hsplit, hne, hs, hfails⟩ := h
  exact ⟨sent, call, s₁, hsplit, hne, hs.of_store, hfails⟩

theorem Breaks.of_arena {a : Arena} (ha : a.growable = s.arena.growable)
    (h : ({ s with arena := a } : Session).Breaks bytes store cause s') :
    s.Breaks bytes store cause s' := by
  obtain ⟨sent, call, s₁, hsplit, hne, hs, hfails⟩ := h
  exact ⟨sent, call, s₁, hsplit, hne, hs.of_arena ha, hfails⟩

/-- What a step of a session comes to: the session goes on with an answer, or it ends for some
reason. -/
inductive Outcome {α : Type} (goes : α → Session → Prop) (ends : Ending → Session → Prop) :
    Except Ending α × Session → Prop
  | goes {answer : α} {s : Session} (h : goes answer s) : Outcome goes ends (.ok answer, s)
  | ends {cause : Ending} {s : Session} (h : ends cause s) : Outcome goes ends (.error cause, s)

/-! ### Replies -/

theorem send_outcome (s : Session) (bytes : Bytes) :
    Outcome (fun _ => s.Sends bytes s.store) (s.Fails bytes) (s.send bytes) := by
  unfold send
  rcases s.outlet.writeAll_cases bytes with
    ⟨o, hwrite, htook⟩ | ⟨hfault, cause, o, taken, hwrite, hcause, hpart, htook, hdown⟩
  · rw [hwrite]
    dsimp only
    rcases o.flush_cases with
      ⟨o', hflush, hkeep, hwrites, hrest, hempty⟩ |
      ⟨hfault, cause, o', hflush, hcause, hmore, hdown⟩
    · rw [hflush]
      refine .goes ?_
      generalize hs' : ({ s with
        outlet := o'
        traffic := { s.traffic with bytesWritten := s.traffic.bytesWritten + bytes.length }
        events := s.events.push (.sent o.unflushed) } : Session) = s'
      have houtput : s'.output = s.output ++ bytes := by
        simp [← hs', output, hempty, htook.unflushed, Event.sentBytes]
      have hstall : s'.stall = s.stall :=
        stall_of_took houtput (by rw [htook.stall, ← hwrites, ← hs'])
      subst hs'
      refine ⟨rfl, rfl, rfl, ?_, rfl, fun h => hkeep (htook.calm h), hstall,
        hrest.trans htook.flushes, fun _ => hempty, houtput, rfl⟩
      simp [readCount, Event.readCount]
    · rw [hflush]
      have hall := htook.trans hmore
      rw [List.append_nil] at hall
      refine .ends ⟨mt htook.calm hfault, hcause, ⟨bytes, List.prefix_refl _, hall, ?_⟩, rfl, rfl,
        rfl⟩
      exact fun h => .inr ⟨rfl, htook.flushes.subset (hdown h)⟩
  · rw [hwrite]
    exact .ends ⟨hfault, hcause, ⟨taken, hpart, htook, fun h => .inl (hdown h)⟩, rfl, rfl, rfl⟩

theorem sendWritten_outcome (s : Session) (w : SendBuffer) :
    Outcome (fun w' s' => w'.written = [] ∧ s.Sends w.written s.store s')
      (s.Breaks w.written s.store) (s.sendWritten w) := by
  have hempty : w.isEmpty = true ↔ w.written = [] := by
    rw [← List.length_eq_zero_iff, SendBuffer.length_written]
    exact beq_iff_eq
  unfold sendWritten
  split
  · next hnil =>
    rw [hempty.1 hnil]
    exact .goes ⟨hempty.1 hnil, .refl s⟩
  · next hsome =>
    have hsend := s.send_outcome w.written
    generalize s.send w.written = result at hsend ⊢
    cases hsend with
    | goes hs => exact .goes ⟨rfl, hs⟩
    | ends hs => exact .ends (hs.breaks (mt hempty.2 hsome))

/-- A buffer of the size of a reply holds nothing else when the reply is written there, so sending
all its cells is sending the reply. -/
theorem sendAlone_eq (s : Session) (r : Reply) : s.sendAlone r = s.send r.encode := by
  obtain ⟨hwritten, -, hcells⟩ :=
    Reply.write_of_capacity_eq (r := r) (w := .ofCapacity r.size) rfl rfl
  unfold sendAlone
  generalize r.write (.ofCapacity r.size) = result at hwritten hcells ⊢
  obtain ⟨_, large⟩ := result
  obtain rfl : _ = Except.ok () := hwritten
  exact congrArg s.send hcells

/-- **A reply is sent or waits behind what waited before it.** Where the stream fails, what waited
was being sent, and the reply as well or not yet. -/
theorem reply_outcome (s : Session) (w : SendBuffer) (r : Reply) :
    Outcome (fun w' s' => ∃ sent, s.Sends sent s.store s' ∧
        sent ++ w'.written = w.written ++ r.encode)
      (fun cause s' => s.Breaks w.written s.store cause s' ∨
        s.Breaks (w.written ++ r.encode) s.store cause s')
      (s.reply w r) := by
  unfold reply
  simp only [Reply.write_eq_put]
  by_cases hfits : r.size ≤ w.remaining
  · rw [SendBuffer.put_of_le hfits]
    exact .goes ⟨[], .refl s, by simp [SendBuffer.written]⟩
  · rw [SendBuffer.put_of_lt (Nat.lt_of_not_le hfits)]
    dsimp only
    have hsend := s.sendWritten_outcome w
    generalize s.sendWritten w = result at hsend ⊢
    cases hsend with
    | ends hs => exact .ends (.inl hs)
    | @goes w₁ s₁ hs =>
      obtain ⟨hempty, hs₁⟩ := hs
      dsimp only
      split
      · have halone := s₁.send_outcome r.encode
        rw [sendAlone_eq]
        generalize s₁.send r.encode = result at halone ⊢
        cases halone with
        | ends hs₂ => exact .ends (.inr (hs₁.store ▸ hs₁.breaks (hs₂.breaks r.encode_ne_nil)))
        | goes hs₂ => exact .goes ⟨_, hs₁.store ▸ hs₁.trans hs₂, by rw [hempty, List.append_nil]⟩
      · next hsmall =>
        have hroom : r.size ≤ w₁.remaining := by
          have hposition := SendBuffer.length_written w₁
          rw [hempty, List.length_nil] at hposition
          rw [SendBuffer.remaining, ← hposition]
          omega
        rw [SendBuffer.put_of_le hroom]
        refine .goes ⟨_, hs₁, ?_⟩
        have hwritten : w₁.front.toList = [] := hempty
        simp [SendBuffer.written, hwritten]

/-- The requests `done` were executed, and the replies to `first` were being sent when the stream
failed. Those are all of them, or the last is left out, whose reply did not fit behind them. -/
def Interrupts {α : Type} (first done : List α) : Prop :=
  first = done ∨ ∃ last, done = first ++ [last]

theorem Interrupts.cons {α : Type} {first done : List α} (h : Interrupts first done) (request : α) :
    Interrupts (request :: first) (request :: done) :=
  h.imp (congrArg _) fun ⟨last, hlast⟩ => ⟨last, congrArg _ hlast⟩

/-- **Requests are answered in order**, and the replies are sent or wait. Where the session ends,
some of the requests were executed, and it was sending their replies. -/
theorem execute_outcome (s : Session) (w : SendBuffer) (requests : List Request) :
    Outcome (fun w' s' => ∃ sent,
        s.Sends sent (executeAll (requests.map Slots.toList) s.store).2 s' ∧
          sent ++ w'.written = w.written ++ repliesBytes (requests.map Slots.toList) s.store)
      (fun cause s' => ∃ done first, done ≠ [] ∧ done <+: requests.map Slots.toList ∧
        Interrupts first done ∧
        s.Breaks (w.written ++ repliesBytes first s.store) (executeAll done s.store).2 cause s')
      (s.execute w requests) := by
  induction requests generalizing s w with
  | nil => exact .goes ⟨[], .refl s, by simp⟩
  | cons request rest ih =>
    obtain ⟨r, store, hexec⟩ : ∃ r store, Command.execute request.toList s.store = (r, store) :=
      ⟨_, _, rfl⟩
    rw [List.map_cons, repliesBytes_cons, executeAll, Session.execute, hexec]
    dsimp only
    have hreply := ({ s with store } : Session).reply_outcome w r
    generalize ({ s with store } : Session).reply w r = result at hreply ⊢
    cases hreply with
    | ends hs₁ =>
      have hfirst : [request.toList] <+: request.toList :: rest.map Slots.toList :=
        List.prefix_append [_] _
      refine .ends ?_
      rcases hs₁ with hs₁ | hs₁
      · refine ⟨[request.toList], [], List.cons_ne_nil _ _, hfirst, .inr ⟨_, rfl⟩, ?_⟩
        simpa [executeAll, hexec] using hs₁.of_store
      · refine ⟨[request.toList], [request.toList], List.cons_ne_nil _ _, hfirst, .inl rfl, ?_⟩
        simpa [repliesBytes_cons, executeAll, hexec] using hs₁.of_store
    | @goes w₁ s₁ hs =>
      obtain ⟨sent₁, hs₁, hsent₁⟩ := hs
      have hstore : s₁.store = store := hs₁.store
      have hrest := ih s₁ w₁
      dsimp only
      generalize s₁.execute w₁ rest = result at hrest ⊢
      rw [hstore] at hrest
      cases hrest with
      | goes hs =>
        obtain ⟨sent₂, hs₂, hsent₂⟩ := hs
        refine .goes ⟨sent₁ ++ sent₂, (hs₁.trans hs₂).of_store, ?_⟩
        rw [List.append_assoc, hsent₂, ← List.append_assoc, hsent₁, List.append_assoc]
      | ends hs =>
        obtain ⟨done, first, -, hdone, hfirst, hs₂⟩ := hs
        refine .ends ⟨request.toList :: done, request.toList :: first, List.cons_ne_nil _ _,
          (List.prefix_cons_inj _).2 hdone, hfirst.cons _, ?_⟩
        have hboth := (hs₁.breaks hs₂).of_store
        rw [← List.append_assoc, hsent₁, List.append_assoc] at hboth
        rw [repliesBytes_cons, executeAll, hexec]
        exact hboth

/-- The session has answered so many more commands. -/
def counting (s : Session) (commands : Nat) : Session :=
  { s with traffic := s.traffic.plus commands 0 0 }

/-- **A batch is answered with the replies of its requests**, all of them sent, and counts only
then. Where the session ends, some of the requests were executed, and it was sending their
replies. -/
theorem answerBatch_outcome (s : Session) (b : Batch) :
    Outcome
      (fun _ s' => ∃ s₁, s' = s₁.counting b.used ∧
        s.Sends (repliesBytes (b.toList.map Slots.toList) s.store)
          (executeAll (b.toList.map Slots.toList) s.store).2 s₁)
      (fun cause s' => ∃ done first, done ≠ [] ∧ done <+: b.toList.map Slots.toList ∧
        Interrupts first done ∧
        s.Breaks (repliesBytes first s.store) (executeAll done s.store).2 cause s')
      (s.answerBatch b) := by
  unfold answerBatch
  have hexec := s.execute_outcome (SendBuffer.ofCapacity s.bufferSize) b.toList
  generalize s.execute (SendBuffer.ofCapacity s.bufferSize) b.toList = result at hexec ⊢
  cases hexec with
  | ends hs => exact .ends hs
  | @goes w s₁ hs =>
    obtain ⟨sent, hs₁, hsent⟩ := hs
    rw [SendBuffer.written_ofCapacity, List.nil_append] at hsent
    dsimp only
    have hwritten := s₁.sendWritten_outcome w
    generalize s₁.sendWritten w = result at hwritten ⊢
    rw [hs₁.store] at hwritten
    cases hwritten with
    | ends hs₂ =>
      have hboth := hsent ▸ hs₁.breaks hs₂
      refine .ends ⟨_, _, ?_, List.prefix_refl _, .inl rfl, hboth⟩
      -- what was being sent is a reply to something
      exact fun hnil => hboth.ne_nil (hnil ▸ repliesBytes_nil _)
    | @goes _ s₂ hs =>
      have hboth := hs₁.trans hs.2
      rw [hsent] at hboth
      exact .goes ⟨s₂, rfl, hboth⟩

/-- **An answer ends a session through its stream or through the client's bytes**, and never because
a reply could not be written. -/
theorem respond_error {read : Except Wire.ParseError (Option Batch.Read)}
    (h : s.respond read = (.error cause, s')) :
    cause.OfStream ∨ ∃ error, cause = .malformed error := by
  rcases read with error | _ | r
  · obtain ⟨rfl, -⟩ : (s.reject error).1 = cause ∧ (s.reject error).2 = s' := by
      simpa [respond] using h
    unfold reject
    split
    · exact .inr ⟨error, rfl⟩
    · next w _ =>
      have hsend := s.send_outcome w.written
      generalize s.send w.written = result at hsend ⊢
      cases hsend with
      | goes => exact .inr ⟨error, rfl⟩
      | ends hs => exact .inl hs.ofStream
  · cases h
  · have hbatch := s.answerBatch_outcome r.batch
    rw [respond] at h
    generalize s.answerBatch r.batch = result at hbatch h
    cases hbatch with
    | goes => cases h
    | ends hs =>
      cases h
      obtain ⟨_, _, -, -, -, hbreaks⟩ := hs
      exact .inl hbreaks.ofStream

/-- On a calm stream all the replies are sent. -/
theorem answerBatch_calm (h : s.outlet.Calm) (b : Batch) :
    ∃ s₁, s.answerBatch b = (.ok (), s₁.counting b.used) ∧
      s.Sends (repliesBytes (b.toList.map Slots.toList) s.store)
        (executeAll (b.toList.map Slots.toList) s.store).2 s₁ := by
  have hbatch := s.answerBatch_outcome b
  generalize s.answerBatch b = result at hbatch ⊢
  cases hbatch with
  | goes hs =>
    obtain ⟨s₁, rfl, hs⟩ := hs
    exact ⟨s₁, rfl, hs⟩
  | ends hs =>
    obtain ⟨_, _, -, -, -, hbreaks⟩ := hs
    exact absurd h hbreaks.not_calm

end Session
end RespStore
