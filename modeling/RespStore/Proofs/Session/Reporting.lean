import RespStore.Proofs.Session.Stopping
import RespStore.Settings

/-!
# RespStore.Proofs.Session.Reporting

What a client hears of its own mistakes. A session that ends over malformed bytes has answered all
the requests before them and then complains in one line. The line has to fit the send buffer, for a
complaint is not sent by itself as a long reply is; and an error about a header quotes the header,
so a client can make the line as long as it likes. A line that does not fit is not sent at all.

The bytes may also be in order and the arena at fault, when a batch finds no room to grow
(`Batch.Overgrown`). Then requests are lost that were complete (`Batch.read_error_cases`).
-/

namespace RespStore

open Wire

/-- The error is about the bytes and not about the memory for the requests in them. -/
def Wire.ParseError.OfBytes : ParseError → Prop
  | .frame _ => True
  | .arena _ => False

instance : DecidablePred Wire.ParseError.OfBytes
  | .frame _ => inferInstanceAs (Decidable True)
  | .arena _ => inferInstanceAs (Decidable False)

/-! ### Two kinds of errors -/

namespace Batch

variable {limits : Limits} {a a' : Arena} {bs : Bytes} {error : ParseError}

/-- An arena with nothing in use can pay for any one request of a million arguments at most. -/
theorem cost_singleton_le (hargs : limits.maxArgs ≤ Limits.standard.maxArgs) {f : Frame}
    (hf : f.WellFormed limits) : cost [f] ≤ Arena.maxCapacity := by
  have hmax : Limits.standard.maxArgs = 2 ^ 20 := rfl
  have hcount : f.args.length ≤ 2 ^ 20 := by
    cases f with
    | array digits items =>
      obtain ⟨-, -, hitems, -⟩ := hf
      rw [Frame.args, List.length_map]
      omega
    | bulk item => exact Nat.one_le_two_pow
    | ping word => exact Nat.one_le_two_pow
  have hslots : capacityFor 1 = 16 := by decide
  simp only [cost, List.length_singleton, hslots, slotsCost, argsCost, argsCount_cons,
    argsCount_nil, entry, Request.argument, initialCapacity, Arena.maxCapacity]
  omega

/-- **An error is about bytes that begin with no frame, or it is the arena's.** In the second case
the batch was overgrown, if the arena can pay for every single request. -/
theorem read_error_cases (hl : limits.maxBulk ≤ Limits.standard.maxBulk) (hbs : bs.Addressable)
    (hroom : ∀ f : Frame, f.WellFormed limits → a.used + cost [f] ≤ a.limit)
    (h : Batch.read limits a bs = (.error error, a')) :
    (error.OfBytes ∧ ∀ f : Frame, f.WellFormed limits → ¬f.bytes <+: bs) ∨
      ¬error.OfBytes ∧ Overgrown limits a bs := by
  by_cases hframe : ∃ f : Frame, f.WellFormed limits ∧ f.bytes <+: bs
  · obtain ⟨f, hf, hfirst⟩ := hframe
    rcases read_of_first hl hbs hf hfirst (hroom f hf) with ⟨_, _, _, -, -, -, -, hread⟩ | hover
    · rw [hread] at h
      cases h
    · obtain ⟨_, _, hread⟩ := read_of_overgrown hbs hover
      rw [hread] at h
      cases h
      exact .inr ⟨id, hover⟩
  · have hnone : ∀ f : Frame, f.WellFormed limits → ¬f.bytes <+: bs :=
      fun f hf hfirst => hframe ⟨f, hf, hfirst⟩
    refine .inl ⟨?_, hnone⟩
    -- an arena that can pay for a ping can pay for the first slots
    have hping := hroom (.ping pingWord) (by decide : Bytes.sameWord pingWord pingWord = true)
    have hcost : cost [] ≤ cost [Frame.ping pingWord] := cost_mono
    obtain ⟨result, hresult, hread⟩ := read_of_no_frame hl hbs hnone
    obtain ⟨_, hread⟩ := hread a (by omega)
    rw [hread] at h
    obtain ⟨rfl, -⟩ := Prod.mk.inj h
    rcases hresult with hnil | ⟨_, herror⟩
    · cases hnil
    · cases herror
      trivial

end Batch

/-! ### Replies take bytes -/

theorem Command.repliesBytes_ne_nil {requests : List (List Bytes)} (h : requests ≠ [])
    (store : Store) : repliesBytes requests store ≠ [] := by
  obtain ⟨request, rest, rfl⟩ := List.exists_cons_of_ne_nil h
  rw [repliesBytes_cons]
  exact List.append_ne_nil_of_left_ne_nil (Reply.encode_ne_nil _) _

namespace Session

open Command

variable {size : Nat} {bs : Bytes} {error : ParseError}

/-! ### Complaints -/

/-- What a session refuses is no request, or there are more requests than its arena can keep in a
batch. -/
theorem Refuses.cases (h : Refuses size bs error) :
    (error.OfBytes ∧ ∀ f : Frame, f.WellFormed (Limits.ofBuffer size) → ¬f.bytes <+: bs) ∨
      ¬error.OfBytes ∧ ∃ fs : List Frame, 17 ≤ fs.length ∧
        (∀ f ∈ fs, f.WellFormed (Limits.ofBuffer size)) ∧ framesBytes fs <+: bs := by
  obtain ⟨hbs, a, a', hgrow, hused, hread⟩ := h
  have hargs : (Limits.ofBuffer size).maxArgs ≤ Limits.standard.maxArgs :=
    max_le (by decide) (Nat.min_le_left ..)
  have hroom (f : Frame) (hf : f.WellFormed (Limits.ofBuffer size)) :
      a.used + Batch.cost [f] ≤ a.limit := by
    rw [Arena.limit, if_pos hgrow, hused, Nat.zero_add]
    exact Batch.cost_singleton_le hargs hf
  rcases Batch.read_error_cases (Limits.maxBulk_ofBuffer size) hbs hroom hread with
    hbytes | ⟨hmemory, hover⟩
  · exact .inl hbytes
  · exact .inr ⟨hmemory, hover.exists_frames⟩

/-- A complaint is sent as a whole or not at all. -/
theorem report_eq_line_iff :
    report size error = Encoding.line Encoding.errorMark (complaint error) ↔
      (Encoding.line Encoding.errorMark (complaint error)).length ≤ size := by
  rw [report, ← Encoding.length_line Encoding.errorMark]
  by_cases hfits : (Encoding.line Encoding.errorMark (complaint error)).length ≤ size
  · rw [if_pos hfits]
    exact iff_of_true rfl hfits
  · rw [if_neg hfits]
    exact iff_of_false (List.cons_ne_nil _ _).symm hfits

theorem length_report_le :
    (report size error).length ≤
      (Encoding.line Encoding.errorMark (complaint error)).length := by
  unfold report
  split
  · exact Nat.le_refl _
  · exact Nat.zero_le _

/-- No complaint makes up for the replies to requests that are lost. -/
theorem repliesBytes_append_report_ne {lost : List (List Bytes)} (hlost : lost ≠ [])
    (requests : List (List Bytes)) (store : Store) :
    repliesBytes requests store ++ report size error ≠
      repliesBytes (requests ++ lost) store ++
        Encoding.line Encoding.errorMark (complaint error) := by
  intro heq
  have hlen := congrArg List.length heq
  have hmissing := List.length_pos_iff.2 (repliesBytes_ne_nil hlost (executeAll requests store).2)
  have hshort : (report size error).length ≤ _ := length_report_le
  rw [repliesBytes_append] at hlen
  simp only [List.length_append] at hlen
  omega

/-- **What a client is told when its bytes end the session.** If they are malformed, all the
requests before them were executed and answered, and the complaint follows exactly if it fits the
send buffer. If the arena is to blame, requests were lost before the complaint.

So the stream took the replies to all the requests and the complaint, and nothing else, exactly if
the bytes are malformed and the line is not longer than the send buffer. -/
theorem run_reports (sizes : Sizes) {script : Script} (hfresh : script.outlet.unflushed = [])
    (store : Store) (traffic : Traffic) {error : ParseError}
    (hcause : (run sizes script store traffic).cause = .malformed error) :
    let t := run sizes script store traffic
    let line := Encoding.line Encoding.errorMark (complaint error)
    ∃ read frames rest, read <+: script.arrivals.flatMap Arrival.bytes ∧
      read.length = t.readCount ∧ Divides (Limits.ofBuffer sizes.buffer) read frames rest ∧
      let replies := repliesBytes (frames.map Frame.args) store
      (t.output = replies ++ line ↔ error.OfBytes ∧ line.length ≤ sizes.buffer) ∧
      (error.OfBytes →
        t.store = (executeAll (frames.map Frame.args) store).2 ∧
          t.output = replies ++ report sizes.buffer error ∧ Refuses sizes.buffer rest error) ∧
      (¬error.OfBytes →
        ∃ m, m + 17 ≤ frames.length ∧
          let requests := (frames.take m).map Frame.args
          t.store = (executeAll requests store).2 ∧
            t.output = repliesBytes requests store ++ report sizes.buffer error) := by
  intro t line
  obtain ⟨read, fs, hread, hcount, hfs, hbegins, hstore, -, hreported⟩ :=
    run_ends sizes hfresh store traffic
  obtain ⟨houtput, rest, hrest, hrefuses⟩ := hreported error hcause
  rcases hrefuses.cases with ⟨hbytes, hnone⟩ | ⟨hmemory, gs, hlost, hgs, hmore⟩
  · -- no frame begins where the session stopped, so it has answered all that there are
    refine ⟨read, fs, rest, hread, hcount, ⟨hfs, hrest, hnone⟩, ?_,
      fun _ => ⟨hstore, houtput, hrefuses⟩, fun hmemory => absurd hbytes hmemory⟩
    rw [houtput, List.append_cancel_left_eq, report_eq_line_iff]
    exact (and_iff_right hbytes).symm
  · -- frames were there that the session did not answer
    obtain ⟨frames, rest', hdiv⟩ := exists_divides (Limits.ofBuffer sizes.buffer) read
    have hall : framesBytes (fs ++ gs) <+: read := by
      rw [hrest, framesBytes_append, List.prefix_append_right_inj]
      exact hmore
    obtain ⟨more, hframes⟩ := hdiv.isPrefix (List.forall_mem_append.2 ⟨hfs, hgs⟩) hall
    have hfirst : frames.take fs.length = fs := by
      rw [← hframes, List.append_assoc, List.take_left]
    refine ⟨read, frames, rest', hread, hcount, hdiv, ?_, fun hbytes => absurd hbytes hmemory,
      fun _ => ⟨fs.length, ?_, ?_⟩⟩
    · refine iff_of_false ?_ fun h => hmemory h.1
      have hne : (gs ++ more).map Frame.args ≠ [] := by
        refine mt List.map_eq_nil_iff.1 (List.ne_nil_of_length_pos ?_)
        rw [List.length_append]
        omega
      rw [houtput, ← hframes, List.append_assoc, List.map_append]
      exact repliesBytes_append_report_ne hne _ store
    · rw [← hframes, List.length_append, List.length_append]
      omega
    · rw [hfirst]
      exact ⟨hstore, houtput⟩

/-- A ping, and an array whose element is an integer. -/
theorem run_reports_integer :
    let script : Script := ⟨[.data (Bytes.ascii "PING\r\n*1\r\n:1\r\n")], Outlet.steady, false⟩
    let t := run ⟨512, 1024⟩ script (Store.create 4) Traffic.none
    let error := ParseError.frame (.notBulk 58)
    script.outlet.unflushed = [] ∧ t.cause = .malformed error ∧
      t.output =
        Bytes.ascii "+PONG\r\n-ERR Protocol error: expected bulk string, got 0x3a\r\n" ∧
      ∃ read frames rest, read <+: script.arrivals.flatMap Arrival.bytes ∧
        Divides (Limits.ofBuffer 512) read frames rest ∧
        t.output = repliesBytes (frames.map Frame.args) (Store.create 4) ++
          Encoding.line Encoding.errorMark (complaint error) := by
  intro script t error
  have hcause : t.cause = .malformed error := by decide +kernel
  obtain ⟨read, frames, rest, hread, -, hdiv, hreported, -⟩ :=
    run_reports ⟨512, 1024⟩ (rfl : script.outlet.unflushed = []) (Store.create 4) Traffic.none
      hcause
  refine ⟨rfl, hcause, by decide +kernel, read, frames, rest, hread, hdiv, hreported.2 ?_⟩
  exact ⟨trivial, by decide +kernel⟩

/-- **A client may never hear of its mistake.** The header here has 480 bytes that are no digits,
and the line that quotes it does not fit the smallest send buffer that the settings allow. The
stream works without faults and takes the reply to the ping, and then the session is over. -/
theorem run_hides_long_header :
    let sizes : Sizes := ⟨512, 1024⟩
    let header : Bytes := List.replicate 480 120
    let bytes := Bytes.ascii "PING\r\n*" ++ header ++ Bytes.crlf
    let script : Script := ⟨[.data bytes], Outlet.steady, false⟩
    let t := run sizes script (Store.create 4) Traffic.none
    let error := ParseError.frame (.badLength (Utf8.lossy header))
    ({ Settings.standard with sizes } : Settings).validate = .ok () ∧
      t.result = .error (.malformed error) ∧ t.output = Bytes.ascii "+PONG\r\n" ∧
      t.output ≠
        Bytes.ascii "+PONG\r\n" ++ Encoding.line Encoding.errorMark (complaint error) := by
  refine ⟨by decide +kernel, by decide +kernel, by decide +kernel, by decide +kernel⟩

end Session
end RespStore
