import RespStore.Proofs.Session.Replies
import RespStore.Proofs.Session.Stopping

/-!
# RespStore.Proofs.Session.Shutdown

What a client is left with when the server goes down. A session that is waiting for bytes has sent
all its replies and ends between two of them, and one that waits for its stream to be flushed has
written whole replies. A session that is writing does not finish: the server goes down while the
stream is not ready, and the write is given up where it stands. If that is inside a reply, the
client has a beginning of the reply and nothing else of it (`run_cuts_pong`).

`run_shutdown` says which of these it is. What was due are the replies to the requests that were
executed, and at most a complaint behind them. The client is left with whole replies unless the
stream stalls in a write at a byte inside one of them.
-/

namespace RespStore.Session

open Command Wire

variable {parts : List Bytes} {bytes : Bytes}

/-- The stream stalls at a byte inside one of the parts. -/
def StallsInside (stall : Option Nat) (parts : List Bytes) : Prop :=
  ∃ n, stall = some n ∧ n < parts.flatten.length ∧ ∀ k, (parts.take k).flatten.length ≠ n

/-- A beginning that is as long as some of the parts is those parts. -/
theorem eq_flatten_take (h : bytes <+: parts.flatten) {k : Nat}
    (hlen : (parts.take k).flatten.length = bytes.length) : bytes = (parts.take k).flatten := by
  have hfirst : (parts.take k).flatten <+: parts.flatten := (List.take_prefix k parts).flatten
  exact (List.prefix_of_prefix_length_le h hfirst hlen.ge).eq_of_length hlen.symm

/-- Bytes that stop where the stream stalls, or else behind whole parts, are whole parts unless the
stream stalls just there and inside one of them. -/
theorem exists_flatten_take_iff {stall : Option Nat} (h : bytes <+: parts.flatten)
    (hstop : stall = some bytes.length ∨ ∃ k, bytes = (parts.take k).flatten) :
    (∃ k, bytes = (parts.take k).flatten) ↔
      ¬(stall = some bytes.length ∧ StallsInside stall parts) := by
  constructor
  · rintro ⟨k, hk⟩ ⟨hstall, n, hn, -, hinside⟩
    obtain rfl := Option.some.inj (hstall.symm.trans hn)
    exact hinside k (congrArg List.length hk.symm)
  · intro houtside
    rcases hstop with hstall | hwhole
    · by_contra hnone
      refine houtside ⟨hstall, _, hstall, ?_, fun k hk => hnone ⟨k, eq_flatten_take h hk⟩⟩
      refine Nat.lt_of_le_of_ne h.length_le fun heq => hnone ⟨parts.length, ?_⟩
      rw [List.take_length]
      exact h.eq_of_length heq
    · exact hwhole

/-- Where nothing but the end of the parts or a stream that stalls stops the bytes, they reach the
byte at which it stalls. -/
theorem stall_of_stallsInside {stall : Option Nat} (hreach : ∀ n, stall = some n → bytes.length ≤ n)
    (hstop : bytes = parts.flatten ∨ stall = some bytes.length)
    (hinside : StallsInside stall parts) : stall = some bytes.length := by
  obtain ⟨n, hn, hlt, -⟩ := hinside
  refine hstop.resolve_left ?_
  rintro rfl
  exact absurd (hreach n hn) (Nat.not_le.2 hlt)

/-- What was due are the replies that were delivered, and a complaint if a part of one was. -/
theorem Delivered.exists_due {stalled flushing : Prop} (h : Delivered parts.flatten bytes)
    (hstop : bytes = parts.flatten ∨ stalled ∨ flushing ∧
      ((∃ k, bytes = (parts.take k).flatten) ∨ ∃ error, bytes = parts.flatten ++
        Encoding.line Encoding.errorMark (complaint error))) :
    ∃ due, (due = parts ∨
        ∃ error, due = parts ++ [Encoding.line Encoding.errorMark (complaint error)]) ∧
      bytes <+: due.flatten ∧
      (bytes = due.flatten ∨ stalled ∨ flushing ∧ ∃ k, bytes = (due.take k).flatten) := by
  rcases hstop with rfl | hstalled | ⟨hflushing, ⟨k, rfl⟩ | ⟨error, rfl⟩⟩
  · exact ⟨parts, .inl rfl, List.prefix_refl _, .inl rfl⟩
  · rcases h with hpart | ⟨error, part, rfl, hpart⟩
    · exact ⟨parts, .inl rfl, hpart, .inr (.inl hstalled)⟩
    · refine ⟨_, .inr ⟨error, rfl⟩, ?_, .inr (.inl hstalled)⟩
      rw [List.flatten_append, List.flatten_singleton]
      exact (List.prefix_append_right_inj _).2 hpart
  · exact ⟨parts, .inl rfl, (List.take_prefix k parts).flatten, .inr (.inr ⟨hflushing, k, rfl⟩)⟩
  · refine ⟨_, .inr ⟨error, rfl⟩, ?_, .inl ?_⟩ <;>
      rw [List.flatten_append, List.flatten_singleton]

/-- Whole replies are those to the first of the requests, or all of them and a complaint. -/
theorem Whole.cases {store : Store} {fs : List Frame} (h : Whole store fs bytes) :
    let replies := (executeAll (fs.map Frame.args) store).1.map Reply.encode
    (∃ k, bytes = (replies.take k).flatten) ∨ ∃ error, bytes = replies.flatten ++
      Encoding.line Encoding.errorMark (complaint error) := by
  refine h.imp (fun ⟨gs, ⟨more, hgs⟩, hbytes⟩ => ⟨gs.length, ?_⟩) fun ⟨error, hbytes⟩ => ⟨error, ?_⟩
  · have hcount :
        ((executeAll (gs.map Frame.args) store).1.map Reply.encode).length = gs.length := by
      rw [List.length_map, length_executeAll, List.length_map]
    rw [← hgs, List.map_append, executeAll_append_fst, List.map_append, List.take_left' hcount,
      ← List.flatMap_def]
    exact hbytes
  · rw [← List.flatMap_def]
    exact hbytes

/-- **What a client is left with when the server goes down.** Its requests were executed up to some
point, and it got a beginning of what was due. That is all of it, or the stream stalled in a write
after the last byte, or the server went down during a flush, and then whole replies were written. So
the client got whole replies unless the stream stalled there, inside a reply.

If the server goes down during no flush, the script alone tells: the client gets whole replies
unless the stream is to stall inside one of those that are due. -/
theorem run_shutdown (sizes : Sizes) {script : Script} (hfresh : script.outlet.unflushed = [])
    (store : Store) (traffic : Traffic)
    (hcause : (run sizes script store traffic).cause = .shutdown) :
    let t := run sizes script store traffic
    ∃ read frames rest, read <+: script.arrivals.flatMap Arrival.bytes ∧
      read.length = t.readCount ∧ Divides (Limits.ofBuffer sizes.buffer) read frames rest ∧
      ∃ m ≤ frames.length, ∃ due : List Bytes,
        let requests := (frames.take m).map Frame.args
        let replies := (executeAll requests store).1.map Reply.encode
        let stall := Outlet.stall script.outlet.writes
        t.store = (executeAll requests store).2 ∧
          (due = replies ∨
            ∃ error, due = replies ++ [Encoding.line Encoding.errorMark (complaint error)]) ∧
          t.output <+: due.flatten ∧
          (t.output = due.flatten ∨ stall = some t.output.length ∨
            .shutdown ∈ script.outlet.flushes ∧ ∃ k, t.output = (due.take k).flatten) ∧
          ((∃ k, t.output = (due.take k).flatten) ↔
            ¬(stall = some t.output.length ∧ StallsInside stall due)) ∧
          (.shutdown ∉ script.outlet.flushes →
            ((∃ k, t.output = (due.take k).flatten) ↔ ¬StallsInside stall due)) := by
  obtain ⟨a, cause, s, read, fs, hread, hstopped, ht⟩ := run_stopped sizes hfresh store traffic
  rw [ht] at hcause ⊢
  have hstall : s.stall = Outlet.stall script.outlet.writes :=
    hstopped.stall.trans (stall_fresh hfresh)
  have hflatten : repliesBytes (fs.map Frame.args) store =
      ((executeAll (fs.map Frame.args) store).1.map Reply.encode).flatten := List.flatMap_def
  have hdelivered : Delivered (repliesBytes (fs.map Frame.args) store) s.output := hstopped.output
  have hstop : s.output = repliesBytes (fs.map Frame.args) store ∨
      Outlet.stall script.outlet.writes = some s.output.length ∨
        .shutdown ∈ script.outlet.flushes ∧ Whole store fs s.output := by
    rw [← stall_fresh hfresh]
    exact hstopped.stalled hcause
  have hreach (n : Nat) (hn : Outlet.stall script.outlet.writes = some n) :
      s.output.length ≤ n := length_output_le (hstall.trans hn)
  rw [hflatten] at hdelivered hstop
  obtain ⟨due, hdue, hbegins, hend⟩ :=
    hdelivered.exists_due (hstop.imp_right (Or.imp_right (And.imp_right Whole.cases)))
  have hwhole : Outlet.stall script.outlet.writes = some s.output.length ∨
      ∃ k, s.output = (due.take k).flatten := by
    rcases hend with hall | hstalls | ⟨-, hsome⟩
    · exact .inr ⟨due.length, by rw [List.take_length, hall]⟩
    · exact .inl hstalls
    · exact .inr hsome
  have hiff := exists_flatten_take_iff hbegins hwhole
  obtain ⟨frames, rest, hdiv⟩ := exists_divides (Limits.ofBuffer sizes.buffer) read
  have hfirst := hdiv.isPrefix hstopped.wellFormed hstopped.begins
  refine ⟨read, frames, rest, hread, hstopped.readCount.symm, hdiv, fs.length, hfirst.length_le,
    due, ?_⟩
  rw [← List.prefix_iff_eq_take.1 hfirst]
  refine ⟨hstopped.store, hdue, hbegins, hend, hiff, fun hnone => hiff.trans (not_congr ?_)⟩
  have hend' := hend.imp_right (Or.resolve_right · fun h => hnone h.1)
  exact ⟨And.right, fun hinside => ⟨stall_of_stallsInside hreach hend' hinside, hinside⟩⟩

/-- Two pings in a batch, and a stream that stalls between the two replies. -/
theorem run_shutdown_between_pongs :
    let pings := Arrival.data (Bytes.ascii "PING\r\nPING\r\n")
    let writes := [Attempt.pending, .ready 4, .ready 3, .shutdown]
    let script : Script := ⟨[pings], ⟨writes, [], []⟩, false⟩
    let t := run Sizes.standard script (Store.create 4) Traffic.none
    script.outlet.unflushed = [] ∧ t.cause = .shutdown ∧ t.output = Bytes.ascii "+PONG\r\n" ∧
      ∃ read frames rest, read <+: script.arrivals.flatMap Arrival.bytes ∧
        read.length = t.readCount ∧
        Divides (Limits.ofBuffer Sizes.standard.buffer) read frames rest ∧
        ∃ m ≤ frames.length, ∃ due : List Bytes,
          let requests := (frames.take m).map Frame.args
          let replies := (executeAll requests (Store.create 4)).1.map Reply.encode
          let stall := Outlet.stall script.outlet.writes
          t.store = (executeAll requests (Store.create 4)).2 ∧
            (due = replies ∨
              ∃ error, due = replies ++ [Encoding.line Encoding.errorMark (complaint error)]) ∧
            t.output <+: due.flatten ∧
            (t.output = due.flatten ∨ stall = some t.output.length ∨
              .shutdown ∈ script.outlet.flushes ∧ ∃ k, t.output = (due.take k).flatten) ∧
            ((∃ k, t.output = (due.take k).flatten) ↔
              ¬(stall = some t.output.length ∧ StallsInside stall due)) ∧
            (.shutdown ∉ script.outlet.flushes →
              ((∃ k, t.output = (due.take k).flatten) ↔ ¬StallsInside stall due)) := by
  intro pings writes script t
  have hcause : t.cause = .shutdown := by decide +kernel
  exact ⟨rfl, hcause, by decide +kernel,
    run_shutdown Sizes.standard rfl (Store.create 4) Traffic.none hcause⟩

/-- **A client may be left with half a reply.** The stream takes three bytes of the reply to a ping
and is then not ready, and the server goes down meanwhile. What the client got is no row of
replies. -/
theorem run_cuts_pong :
    let script : Script :=
      ⟨[.data (Bytes.ascii "PING\r\n")], ⟨[.ready 3, .shutdown], [], []⟩, false⟩
    let t := run Sizes.standard script (Store.create 4) Traffic.none
    t.cause = .shutdown ∧ t.output = Bytes.ascii "+PO" ∧
      ∀ replies : List Reply, t.output ≠ replies.flatMap Reply.encode := by
  intro script t
  have houtput : t.output = Bytes.ascii "+PO" := by decide +kernel
  refine ⟨by decide +kernel, houtput, ?_⟩
  rw [houtput]
  intro replies
  cases replies with
  | nil => exact List.cons_ne_nil _ _
  | cons r replies =>
    intro heq
    have hopen : Value.open? (Bytes.ascii "+PO") = none := by decide
    have hfirst := r.reads.first? (replies.flatMap Reply.encode)
    rw [← List.flatMap_cons, ← heq, Value.first?, Value.read?_succ, hopen] at hfirst
    cases hfirst

end RespStore.Session
