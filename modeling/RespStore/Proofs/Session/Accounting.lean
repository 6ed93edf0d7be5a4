import RespStore.Proofs.Session.Stages

/-!
# RespStore.Proofs.Session.Accounting

What the counts tell of sessions. They are raised at different moments: bytes read when they are
read, bytes written when they are flushed, and commands when all the replies of their batch are
flushed. So a session that ends in the middle of a write leaves something out, and `Accounted` says
what: the commands executed in that one batch, and the bytes that the stream took of that one write.

Which batch and which write that is, the session tells as it stands before its last step
(`BeforeEnd`). Until then everything it executed is counted; the last step may leave a part out
(`LastStep`). So the number of commands that a run counts is determined (`Counts.unique`).

One run is accounted for whatever counts it begins with (`run_accounted`), so sessions that run one
after another on the same store and the same counts keep a `Ledger`. The counts are words, and none
comes round before more has been sent than a word can count (`runAll_fits`).
-/

namespace RespStore

/-- The bytes that reached the client in the whole session. -/
def Transcript.flushed (t : Transcript) : Bytes := t.events.flatMap Event.sentBytes

theorem Transcript.output_eq (t : Transcript) : t.output = t.flushed ++ t.unflushed := rfl

namespace Session

open Command Wire

variable {sizes : Sizes} {script : Script} {store : Store} {before traffic : Traffic}
  {t : Transcript} {last s₀ s s' : Session} {read : Bytes} {whole part fs : List Frame}
  {cause : Ending}

/-! ### What is counted -/

/-- The session `last` is where the run stood before the step that ended it. -/
structure BeforeEnd (sizes : Sizes) (script : Script) (store : Store) (before : Traffic)
    (last : Session) : Prop where
  up : script.shutDown = false
  stage : ∃ s₀ n, start sizes script.outlet store before.opened = .ok s₀ ∧
    ¬(Stage.next^[n] (.reading s₀ script.arrivals)).IsOver ∧
    (Stage.next^[n + 1] (.reading s₀ script.arrivals)).IsOver ∧
    (Stage.next^[n] (.reading s₀ script.arrivals)).session = last

/-- There is only one such session. -/
theorem BeforeEnd.unique (h : BeforeEnd sizes script store before s)
    (h' : BeforeEnd sizes script store before s') : s = s' := by
  obtain ⟨s₀, n, hstart, hn, hover, rfl⟩ := h.stage
  obtain ⟨s₁, m, hstart', hm, hover', rfl⟩ := h'.stage
  obtain rfl := Except.ok.inj (hstart.symm.trans hstart')
  rw [Stage.last_unique hn hover hm hover']

/-- What the last step of a run did. The session stood at `last` before and had answered the frames
`whole`. The step executed the frames `part`, and they are not counted. -/
inductive LastStep (sizes : Sizes) (script : Script) (store : Store) (last : Session)
    (whole : List Frame) (t : Transcript) : List Frame → Prop
  /-- Nothing was sent. -/
  | silent (hcause : ∀ error, t.cause ≠ .malformed error) (hunflushed : t.unflushed = [])
      (hflushed : t.flushed = repliesBytes (whole.map Frame.args) store) :
      LastStep sizes script store last whole t []
  /-- The bytes in the buffer were refused, and if there was room for the complaint, it was sent. -/
  | refused {error : ParseError} (hcause : t.cause = .malformed error)
      (hrefuses : Refuses sizes.buffer last.buffered error) (hunflushed : t.unflushed = [])
      (hflushed : t.flushed =
        repliesBytes (whole.map Frame.args) store ++ report sizes.buffer error) :
      LastStep sizes script store last whole t []
  /-- The complaint was not sent. What the stream took of it did not reach the client. -/
  | interrupted {error : ParseError} (hcause : t.cause.OfStream) (hcalm : ¬script.outlet.Calm)
      (hrefuses : Refuses sizes.buffer last.buffered error)
      (hunflushed : t.unflushed <+: Encoding.line Encoding.errorMark (complaint error))
      (hflushed : t.flushed = repliesBytes (whole.map Frame.args) store) :
      LastStep sizes script store last whole t []
  /-- The replies to a batch were not all sent. The bytes `call` were, or were to be, written
  together; what the stream took of them did not reach the client. -/
  | broken {batch part first : List Frame} {call : Bytes} (hcause : t.cause.OfStream)
      (hcalm : ¬script.outlet.Calm) (htakes : last.TakesIn batch) (hne : part ≠ [])
      (hpart : part <+: batch) (hfirst : Interrupts first part) (hcall : call ≠ [])
      (hunflushed : t.unflushed <+: call)
      (hflushed : t.flushed ++ call =
        repliesBytes ((whole ++ first).map Frame.args) store) :
      LastStep sizes script store last whole t part

/-- Nothing is left out if the stream is calm, or if the run ended for another reason. -/
theorem LastStep.eq_nil_of_no_fault (h : LastStep sizes script store last whole t part)
    (hnone : script.outlet.Calm ∨ ¬t.cause.OfStream) : part = [] ∧ t.unflushed = [] := by
  have hfault (hcause : t.cause.OfStream) (hcalm : ¬script.outlet.Calm) : False :=
    hnone.elim hcalm (absurd hcause)
  cases h with
  | silent _ hunflushed => exact ⟨rfl, hunflushed⟩
  | refused _ _ hunflushed => exact ⟨rfl, hunflushed⟩
  | interrupted hcause hcalm => exact (hfault hcause hcalm).elim
  | broken hcause hcalm => exact (hfault hcause hcalm).elim

/-- What a session executed. It had read the bytes `read` when it stood at `last` before the last
step. The frames `whole` at their start were executed and answered, and the other bytes were in the
buffer. The last step executed the frames `part` from the start of these. -/
structure Executed (sizes : Sizes) (script : Script) (store : Store) (before : Traffic)
    (last : Session) (read : Bytes) (whole part : List Frame) (t : Transcript) : Prop where
  beforeEnd : BeforeEnd sizes script store before last
  arrived : read <+: script.arrivals.flatMap Arrival.bytes
  readCount : read.length = t.readCount
  wellFormed : ∀ f ∈ whole ++ part, f.WellFormed (Limits.ofBuffer sizes.buffer)
  bytes : read = framesBytes whole ++ last.buffered
  begins : framesBytes part <+: last.buffered
  answered : last.output = repliesBytes (whole.map Frame.args) store
  unflushed : last.outlet.unflushed = []
  stored : last.store = (executeAll (whole.map Frame.args) store).2
  executed : t.store = (executeAll ((whole ++ part).map Frame.args) store).2
  step : LastStep sizes script store last whole t part

/-- The number of commands that a run counts. -/
inductive Counts (sizes : Sizes) (script : Script) (store : Store) (before : Traffic)
    (t : Transcript) : Nat → Prop
  /-- The session did not begin. -/
  | unstarted (hstart : script.shutDown = true ∨
        ∃ error, start sizes script.outlet store before.opened = .error error)
      (hstore : t.store = store) (hevents : t.events = []) (hunflushed : t.unflushed = []) :
      Counts sizes script store before t 0
  /-- What it executed counts, up to the last step. -/
  | started {last : Session} {read : Bytes} {whole part : List Frame}
      (h : Executed sizes script store before last read whole part t) :
      Counts sizes script store before t whole.length

/-- **The number is determined.** -/
theorem Counts.unique {n m : Nat} (h : Counts sizes script store before t n)
    (h' : Counts sizes script store before t m) : n = m := by
  have hexclusive {last : Session} (hlast : BeforeEnd sizes script store before last)
      (hstart : script.shutDown = true ∨
        ∃ error, start sizes script.outlet store before.opened = .error error) : False := by
    obtain ⟨s₀, _, hok, -⟩ := hlast.stage
    rcases hstart with hdown | ⟨error, herror⟩
    · exact Bool.false_ne_true (hlast.up.symm.trans hdown)
    · cases hok.symm.trans herror
  cases h with
  | unstarted hstart =>
    cases h' with
    | unstarted => rfl
    | started h' => exact (hexclusive h'.beforeEnd hstart).elim
  | @started last read whole part h =>
    cases h' with
    | unstarted hstart => exact (hexclusive h.beforeEnd hstart).elim
    | @started last' read' whole' part' h' =>
      obtain rfl := h.beforeEnd.unique h'.beforeEnd
      -- as much was read, and the same bytes of it were left, so the same were answered
      have hread : read = read' :=
        (List.prefix_of_prefix_length_le h.arrived h'.arrived
          (h.readCount.trans h'.readCount.symm).le).eq_of_length
            (h.readCount.trans h'.readCount.symm)
      have hbytes : framesBytes whole = framesBytes whole' :=
        List.append_cancel_right (h.bytes.symm.trans (hread.trans h'.bytes))
      have hdivides : Divides (Limits.ofBuffer sizes.buffer) (framesBytes whole) whole [] :=
        ⟨(List.forall_mem_append.1 h.wellFormed).1, (List.append_nil _).symm, incomplete_nil _⟩
      have hdivides' : Divides (Limits.ofBuffer sizes.buffer) (framesBytes whole) whole' [] :=
        ⟨(List.forall_mem_append.1 h'.wellFormed).1, hbytes.trans (List.append_nil _).symm,
          incomplete_nil _⟩
      rw [(hdivides.unique hdivides').1]

/-- The counts after a session are those before it and what the session did. If the session did not
end through its stream, or the stream has no faults, nothing is left out. -/
structure Accounted (sizes : Sizes) (script : Script) (store : Store) (before : Traffic)
    (t : Transcript) : Prop where
  active : t.traffic.active = before.active
  accepted : t.traffic.accepted = before.accepted + 1
  bytesRead : t.traffic.bytesRead = before.bytesRead + t.readCount
  bytesWritten : t.traffic.bytesWritten = before.bytesWritten + t.flushed.length
  shortfall : t.traffic.bytesWritten + t.unflushed.length = before.bytesWritten + t.output.length
  counted : ∃! n, Counts sizes script store before t n
  commands : ∀ n, Counts sizes script store before t n →
    t.traffic.commands = before.commands + n
  undisturbed : script.outlet.Calm ∨ ¬t.cause.OfStream →
    t.unflushed = [] ∧ ∃ requests : List (List Bytes),
      t.store = (executeAll requests store).2 ∧
        t.traffic.commands = before.commands + requests.length

/-- Sessions that ran one after another are accounted for, each on the store and the counts that the
one before left. -/
inductive Ledger : List (Sizes × Script) → Store → Traffic → List Transcript → Prop
  | nil {store : Store} {traffic : Traffic} : Ledger [] store traffic []
  | cons {sizes : Sizes} {script : Script} {rest : List (Sizes × Script)} {store : Store}
      {traffic : Traffic} {t : Transcript} {ts : List Transcript}
      (first : Accounted sizes script store traffic t) (later : Ledger rest t.store t.traffic ts) :
      Ledger ((sizes, script) :: rest) store traffic (t :: ts)

/-! ### The last step -/

/-- The counts of a session that is over are those of what it did before the last step, and of the
bytes that reached the client since. -/
theorem Midway.traffic_of_ends (h : s₀.Midway read fs s) (hends : s.Ends part cause s') :
    s'.traffic = s₀.traffic.plus fs.length read.length s'.flushed.length := by
  have hsent {bytes : Bytes} {store : Store} {s' : Session} (hs : s.Sends bytes store s') :
      s'.traffic = s₀.traffic.plus fs.length read.length s'.flushed.length := by
    rw [h.traffic_of_sends hs, output_eq_flushed (hs.unflushed h.unflushed)]
  cases hends with
  | silent _ hs => exact hsent hs
  | refused _ hs => exact hsent hs
  | interrupted _ hs =>
    rw [hs.traffic, hs.flushed]
    exact hsent (.refl s)
  | broken _ _ _ _ hs =>
    obtain ⟨_, _, s₁, -, -, hs₁, hfails⟩ := hs
    rw [hfails.traffic, hfails.flushed]
    exact hsent hs₁

/-- The last step of a session is the last step of its run. -/
theorem Midway.lastStep (h : s₀.Midway read fs s) (hends : s.Ends part cause s')
    (hbuffer : s₀.bufferSize = sizes.buffer) (houtlet : s₀.outlet = script.outlet) :
    LastStep sizes script s₀.store s fs (s'.transcript cause) part := by
  have hfault (hfails : ¬s.outlet.Calm) : ¬script.outlet.Calm := houtlet ▸ mt h.calm hfails
  have hflushed : s.flushed = repliesBytes (fs.map Frame.args) s₀.store := by
    rw [← output_eq_flushed h.unflushed, h.output]
  cases hends with
  | silent hcause hs =>
    have hempty := hs.unflushed h.unflushed
    have houtput := hs.output
    rw [output_eq_flushed hempty, List.append_nil, h.output] at houtput
    exact .silent hcause hempty houtput
  | refused hrefuses hs =>
    have hempty := hs.unflushed h.unflushed
    have houtput := hs.output
    rw [output_eq_flushed hempty, h.output] at houtput
    rw [h.bufferSize, hbuffer] at hrefuses houtput
    exact .refused rfl hrefuses hempty houtput
  | interrupted hrefuses hs =>
    obtain ⟨taken, htaken, htook, -⟩ := hs.took
    rw [h.bufferSize, hbuffer] at hrefuses
    refine .interrupted hs.ofStream (hfault hs.calm) hrefuses ?_ (hs.flushed.trans hflushed)
    have hunflushed : (s'.transcript cause).unflushed = taken := by
      rw [transcript, htook.unflushed, h.unflushed, List.nil_append]
    rw [hunflushed]
    exact htaken
  | @broken batch _ first _ _ htakes hne hpart hfirst hs =>
    obtain ⟨call, hcall, hflushed, hunflushed⟩ := hs.last_call h.unflushed
    refine .broken hs.ofStream (hfault hs.not_calm) htakes hne hpart hfirst hcall hunflushed ?_
    rw [List.map_append, repliesBytes_append, ← h.store, ← h.output]
    exact hflushed

/-- The last step executes frames from the start of the buffer. -/
theorem Ends.begins (h : s.Ends part cause s') :
    (∀ f ∈ part, f.WellFormed (Limits.ofBuffer s.bufferSize)) ∧ framesBytes part <+: s.buffered ∧
      s'.store = (executeAll (part.map Frame.args) s.store).2 ∧ s'.readCount = s.readCount := by
  cases h with
  | silent _ hs => exact ⟨by simp, List.nil_prefix, hs.store, hs.readCount⟩
  | refused _ hs => exact ⟨by simp, List.nil_prefix, hs.store, hs.readCount⟩
  | interrupted _ hs => exact ⟨by simp, List.nil_prefix, hs.store, hs.readCount⟩
  | broken htakes _ hpart _ hs =>
    exact ⟨fun f hf => htakes.wellFormed f (hpart.subset hf),
      (hpart.flatMap Frame.bytes).trans htakes.begins, hs.store_eq, hs.readCount⟩

/-! ### Sessions in a row -/

/-- **What a run executed**: everything before the last step, and what that step did. -/
theorem run_executed (sizes : Sizes) {script : Script} (hfresh : script.outlet.unflushed = [])
    (store : Store) (before : Traffic) (hup : script.shutDown = false) {s₀ : Session}
    (hstart : start sizes script.outlet store before.opened = .ok s₀) :
    let t := run sizes script store before
    ∃ last read whole part, Executed sizes script store before last read whole part t ∧
      t.traffic = (before.opened.plus whole.length read.length t.flushed.length).closed := by
  intro t
  have hfirst := sound_of_start hfresh hstart
  have ht : t = _ := run_of_start hup hstart
  obtain ⟨hsize, a, -, rfl⟩ := fresh_of_start hstart
  obtain ⟨n, hn, hended⟩ := hfirst.exists_last hsize id
  have hnext := hended
  rw [Function.iterate_succ_apply'] at hnext
  obtain ⟨read, rest, whole, part, hstream, hmid, hends⟩ :=
    (hfirst.iterate hsize n).ends_of_next hsize hn hnext
  rw [Stage.outcome_reading] at hended hends
  generalize hlast : (Stage.next^[n] (.reading (fresh sizes script store before a)
    script.arrivals)).session = last at hmid hends
  obtain ⟨hwf, hbegins, hstore, hcount⟩ := hends.begins
  rw [hmid.bufferSize] at hwf
  refine ⟨last, read, whole, part, ?_, ?_⟩
  · exact
      { beforeEnd := ⟨hup, _, n, hstart, hn, hended ▸ trivial, hlast⟩
        arrived := ⟨rest, hstream.symm⟩
        readCount := by
          rw [ht, ← hmid.readCount, ← hcount]
          rfl
        wellFormed := List.forall_mem_append.2 ⟨hmid.wellFormed, hwf⟩
        bytes := hmid.bytes
        begins := hbegins
        answered := hmid.output
        unflushed := hmid.unflushed
        stored := hmid.store
        executed := by
          rw [ht, List.map_append, executeAll_append_snd]
          exact hstore.trans (by rw [hmid.store]; rfl)
        step := ht ▸ hmid.lastStep hends rfl rfl }
  · rw [ht]
    exact congrArg Traffic.closed (hmid.traffic_of_ends hends)

/-- What the counts of a run come to says that it is accounted for. -/
theorem accounted_of_traffic {n read : Nat} (hcounts : Counts sizes script store before t n)
    (hread : t.readCount = read)
    (htraffic : t.traffic = (before.opened.plus n read t.flushed.length).closed)
    (hnone : script.outlet.Calm ∨ ¬t.cause.OfStream →
      t.unflushed = [] ∧ ∃ requests : List (List Bytes),
        t.store = (executeAll requests store).2 ∧ n = requests.length) :
    Accounted sizes script store before t := by
  have hwritten : t.traffic.bytesWritten = before.bytesWritten + t.flushed.length :=
    congrArg Traffic.bytesWritten htraffic
  have hcommands : t.traffic.commands = before.commands + n := congrArg Traffic.commands htraffic
  refine
    { active := (congrArg Traffic.active htraffic).trans rfl
      accepted := congrArg Traffic.accepted htraffic
      bytesRead := hread ▸ congrArg Traffic.bytesRead htraffic
      bytesWritten := hwritten
      shortfall := by rw [hwritten, Transcript.output_eq, List.length_append, Nat.add_assoc]
      counted := ⟨n, hcounts, fun m hm => hm.unique hcounts⟩
      commands := fun m hm => hm.unique hcounts ▸ hcommands
      undisturbed := fun h => ?_ }
  obtain ⟨hempty, requests, hstore, rfl⟩ := hnone h
  exact ⟨hempty, requests, hstore, hcommands⟩

/-- One session is accounted for. -/
theorem run_accounted (sizes : Sizes) {script : Script} (hfresh : script.outlet.unflushed = [])
    (store : Store) (before : Traffic) :
    Accounted sizes script store before (run sizes script store before) := by
  have hunstarted (cause : Ending) (hstart : script.shutDown = true ∨
      ∃ error, start sizes script.outlet store before.opened = .error error) :
      Accounted sizes script store before
        ⟨cause, [], script.outlet.unflushed, store, before.opened.closed⟩ :=
    accounted_of_traffic (.unstarted hstart rfl rfl hfresh) rfl rfl fun _ => ⟨hfresh, [], rfl, rfl⟩
  by_cases hdown : script.shutDown = true
  · rw [run, if_pos hdown]
    exact hunstarted _ (.inl hdown)
  · cases hstart : start sizes script.outlet store before.opened with
    | error error =>
      rw [run, if_neg hdown, hstart]
      exact hunstarted _ (.inr ⟨error, hstart⟩)
    | ok s₀ =>
      obtain ⟨last, read, whole, part, hexecuted, htraffic⟩ :=
        run_executed sizes hfresh store before (by simpa using hdown) hstart
      refine accounted_of_traffic (.started hexecuted) hexecuted.readCount.symm htraffic ?_
      intro hnone
      obtain ⟨rfl, hempty⟩ := hexecuted.step.eq_nil_of_no_fault hnone
      refine ⟨hempty, whole.map Frame.args, ?_, (List.length_map ..).symm⟩
      rw [hexecuted.executed, List.append_nil]

/-- **Every session in a row is accounted for.** -/
theorem runAll_accounted {runs : List (Sizes × Script)}
    (hfresh : ∀ r ∈ runs, r.2.outlet.unflushed = []) (store : Store) (traffic : Traffic) :
    Ledger runs store traffic (runAll runs store traffic) := by
  induction runs generalizing store traffic with
  | nil => exact .nil
  | cons r rest ih =>
    obtain ⟨hfirst, hrest⟩ := List.forall_mem_cons.1 hfresh
    exact .cons (run_accounted r.1 hfirst store traffic) (ih hrest _ _)

/-- Two pings in a batch, to a stream that takes nine of the fourteen bytes, and two more to one
that takes them all. -/
theorem runAll_refused_and_answered :
    let sizes : Sizes := ⟨512, 1024⟩
    let pings := Arrival.data (Bytes.ascii "PING\r\nPING\r\n")
    let refused : Script := ⟨[pings], ⟨[.ready 9, .pending, .ready 0], [], []⟩, false⟩
    let answered : Script := ⟨[pings], Outlet.steady, false⟩
    let runs := [(sizes, refused), (sizes, answered)]
    let ts := runAll runs (Store.create 4) Traffic.none
    (∀ r ∈ runs, r.2.outlet.unflushed = []) ∧
      ts.map (·.output) = [Bytes.ascii "+PONG\r\n+P", Bytes.ascii "+PONG\r\n+PONG\r\n"] ∧
      ts.map (·.traffic) = [⟨1, 0, 0, 12, 0⟩, ⟨2, 0, 2, 24, 14⟩] ∧
      Ledger runs (Store.create 4) Traffic.none ts := by
  intro sizes pings refused answered runs ts
  have hfresh : ∀ r ∈ runs, r.2.outlet.unflushed = [] := by decide
  exact ⟨hfresh, by decide +kernel, by decide +kernel,
    runAll_accounted hfresh (Store.create 4) Traffic.none⟩

/-! ### The counts are words -/

/-- A run counts no more commands than there is room for in the bytes that it read. -/
theorem Counts.six_mul_le {n : Nat} (h : Counts sizes script store before t n) :
    6 * n ≤ t.readCount := by
  cases h with
  | unstarted => exact Nat.zero_le _
  | @started _ read whole part h =>
    have hwf := (List.forall_mem_append.1 h.wellFormed).1
    have hcount := length_le_argsCount hwf
    have hbytes := six_mul_argsCount_le hwf
    have hread := congrArg List.length h.bytes
    rw [List.length_append, h.readCount] at hread
    omega

/-- A run reads nothing that its client did not send. -/
theorem Counts.readCount_le {n : Nat} (h : Counts sizes script store before t n) :
    t.readCount ≤ (script.arrivals.flatMap Arrival.bytes).length := by
  cases h with
  | unstarted _ _ hevents =>
    rw [Transcript.readCount, hevents]
    exact Nat.zero_le _
  | started h => exact h.readCount ▸ h.arrived.length_le

/-- The number of bytes that the clients of some scripts send. -/
def clientBytes (runs : List (Sizes × Script)) : Nat :=
  (runs.map fun r => (r.2.arrivals.flatMap Arrival.bytes).length).sum

end Session

namespace Traffic

/-- The counts have risen from `before` to `t` by no more than so many sessions, bytes read and
bytes written. -/
structure Rises (before : Traffic) (sessions read written : Nat) (t : Traffic) : Prop where
  active : t.active = before.active
  accepted : t.accepted ≤ before.accepted + sessions
  commands : 6 * t.commands ≤ 6 * before.commands + read
  bytesRead : t.bytesRead ≤ before.bytesRead + read
  bytesWritten : t.bytesWritten ≤ before.bytesWritten + written

variable {t t' t'' : Traffic} {n n' read read' written written' : Nat}

theorem Rises.mono (h : t.Rises n read written t') (hn : n ≤ n') (hread : read ≤ read')
    (hwritten : written ≤ written') : t.Rises n' read' written' t' where
  active := h.active
  accepted := h.accepted.trans (Nat.add_le_add_left hn _)
  commands := h.commands.trans (Nat.add_le_add_left hread _)
  bytesRead := h.bytesRead.trans (Nat.add_le_add_left hread _)
  bytesWritten := h.bytesWritten.trans (Nat.add_le_add_left hwritten _)

theorem Rises.trans (h : t.Rises n read written t') (h' : t'.Rises n' read' written' t'') :
    t.Rises (n + n') (read + read') (written + written') t'' where
  active := h'.active.trans h.active
  accepted := by linarith [h.accepted, h'.accepted]
  commands := by linarith [h.commands, h'.commands]
  bytesRead := by linarith [h.bytesRead, h'.bytesRead]
  bytesWritten := by linarith [h.bytesWritten, h'.bytesWritten]

/-- Every count is a word. -/
structure Fits (t : Traffic) : Prop where
  active : t.active < Word.size
  accepted : t.accepted < Word.size
  commands : t.commands < Word.size
  bytesRead : t.bytesRead < Word.size
  bytesWritten : t.bytesWritten < Word.size

end Traffic

namespace Session

variable {sizes : Sizes} {script : Script} {store : Store} {before : Traffic} {t : Transcript}
  {runs : List (Sizes × Script)}

theorem Accounted.rises (h : Accounted sizes script store before t) :
    before.Rises 1 (script.arrivals.flatMap Arrival.bytes).length t.output.length t.traffic := by
  obtain ⟨n, hcounts, -⟩ := h.counted
  have hcommands := h.commands n hcounts
  have hsix := hcounts.six_mul_le
  have hread := hcounts.readCount_le
  have hwritten := h.shortfall
  refine ⟨h.active, h.accepted.le, by omega, ?_, by omega⟩
  rw [h.bytesRead]
  exact Nat.add_le_add_left hread _

/-- **However many sessions ran, the counts have risen by no more than was sent.** -/
theorem runAll_rises (hfresh : ∀ r ∈ runs, r.2.outlet.unflushed = []) (store : Store)
    (before : Traffic) :
    let ts := runAll runs store before
    ∀ t ∈ ts, before.Rises runs.length (clientBytes runs) (ts.map (·.output.length)).sum
      t.traffic := by
  induction runs generalizing store before with
  | nil => simp [runAll]
  | cons r rest ih =>
    obtain ⟨sizes, script⟩ := r
    obtain ⟨hfirst, hrest⟩ := List.forall_mem_cons.1 hfresh
    have hrises := (run_accounted sizes hfirst store before).rises
    have hbytes : clientBytes ((sizes, script) :: rest) =
        (script.arrivals.flatMap Arrival.bytes).length + clientBytes rest := List.sum_cons
    dsimp only
    rw [runAll, hbytes, List.map_cons, List.sum_cons, List.length_cons, Nat.add_comm rest.length]
    refine List.forall_mem_cons.2 ⟨?_, fun t ht => hrises.trans (ih hrest _ _ t ht)⟩
    exact hrises.mono (Nat.le_add_right ..) (Nat.le_add_right ..) (Nat.le_add_right ..)

/-- **No count comes round** as long as the sessions, the bytes that the clients send and the bytes
that the streams take are few enough to be counted in words. -/
theorem runAll_fits (hfresh : ∀ r ∈ runs, r.2.outlet.unflushed = []) (store : Store)
    (hactive : before.active < Word.size) (haccepted : before.accepted + runs.length < Word.size)
    (hcommands : before.commands + clientBytes runs < Word.size)
    (hread : before.bytesRead + clientBytes runs < Word.size)
    (hwritten : before.bytesWritten +
      ((runAll runs store before).map (·.output.length)).sum < Word.size) :
    ∀ t ∈ runAll runs store before, t.traffic.Fits := by
  intro t ht
  have hrises := runAll_rises hfresh store before t ht
  have := hrises.commands
  exact ⟨hrises.active ▸ hactive, hrises.accepted.trans_lt haccepted, by omega,
    hrises.bytesRead.trans_lt hread, hrises.bytesWritten.trans_lt hwritten⟩

end Session
end RespStore
