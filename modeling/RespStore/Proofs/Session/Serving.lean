import RespStore.Proofs.Session.Sending
import RespStore.Proofs.Session.Setup
import RespStore.Proofs.Wire.Cut

/-!
# RespStore.Proofs.Session.Serving

How requests arrive makes no difference to a session. A stream of requests may be cut anywhere,
inside a request as well as between two of them, and may hold many requests in one piece. The
session answers them as if they had been executed one after another, and at the end of the stream
it has left the same store and sent the same replies.

What carries the proof from one arrival to the next is `Underway`: what is in the receive buffer is
a beginning of the first request that has not been answered. Every step of the session that takes
in bytes moves some requests from the stream to the answers (`Answers`) and leaves such a beginning.
-/

namespace RespStore

open Wire

/-! ### Requests underway -/

/-- The request is one that a session with buffers of `size` bytes serves however it arrives. The
standard limits are no restriction for requests that fit buffers of a few mebibytes. -/
structure Wire.Frame.Servable (size : Nat) (f : Frame) : Prop where
  wellFormed : f.WellFormed Limits.standard
  short : f.ShortNumerals
  fits : f.bytes.length ≤ size

instance (size : Nat) (f : Frame) : Decidable (f.Servable size) :=
  decidable_of_iff (f.WellFormed Limits.standard ∧ f.ShortNumerals ∧ f.bytes.length ≤ size)
    ⟨fun h => ⟨h.1, h.2.1, h.2.2⟩, fun h => ⟨h.1, h.2, h.3⟩⟩

/-- The session's own limit on the elements of an array turns away nothing that fits its buffer. -/
theorem Wire.Frame.allowed_of_fits {size : Nat} {f : Frame} (hwf : f.WellFormed Limits.standard)
    (hfits : f.bytes.length ≤ size) : f.WellFormed (Limits.ofBuffer size) := by
  have hargs := (Frame.length_args_le_of_fits hwf hfits).2
  cases f with
  | array digits items =>
    obtain ⟨hdigits, hne, hmax, hitems⟩ := hwf
    rw [Frame.args, List.length_map] at hargs
    exact ⟨hdigits, hne, hargs hmax, fun item hi => ⟨(hitems item hi).1, (hitems item hi).2⟩⟩
  | bulk item => exact ⟨hwf.1, hwf.2⟩
  | ping word => exact hwf

theorem Wire.Frame.Servable.allowed {size : Nat} {f : Frame} (h : f.Servable size) :
    f.WellFormed (Limits.ofBuffer size) := Frame.allowed_of_fits h.wellFormed h.fits

/-- The bytes are a beginning of some request, and not all of it. -/
def Unfinished (size : Nat) (part : Bytes) : Prop :=
  ∃ f : Frame, f.Servable size ∧ Bytes.IsCut part f.bytes

theorem Unfinished.length_lt {size : Nat} {part : Bytes} (h : Unfinished size part) :
    part.length < size := by
  obtain ⟨f, hf, hcut⟩ := h
  exact Nat.lt_of_lt_of_le hcut.2 hf.fits

theorem Unfinished.mono {size : Nat} {part whole : Bytes} (h : Unfinished size whole)
    (hbegins : part <+: whole) : Unfinished size part := by
  obtain ⟨f, hf, hcut⟩ := h
  exact ⟨f, hf, hbegins.trans hcut.1, Nat.lt_of_le_of_lt hbegins.length_le hcut.2⟩

/-- What is unfinished is waited for. -/
theorem Unfinished.request {size : Nat} (hsize : size < 2 ^ 63) {part : Bytes}
    (h : Unfinished size part) (a : Arena) :
    request (Limits.ofBuffer size) a part = (.incomplete, a) := by
  obtain ⟨f, hf, hcut⟩ := h
  have haddr : f.bytes.Addressable := Nat.lt_of_le_of_lt hf.fits hsize
  obtain ⟨scan, hscan, hrequest⟩ :=
    request_awaits (Limits.maxBulk_ofBuffer size) hf.allowed haddr hcut
  rcases hscan with rfl | ⟨-, digits, hmem, hlong⟩
  · exact hrequest a
  · have := hf.short digits hmem
    omega

/-- Of the requests `fs` and the unfinished one after them, so much has arrived that the first is
not complete. -/
def Underway (fs : List Frame) (tail part : Bytes) : Prop :=
  match fs with
  | [] => part <+: tail
  | f :: _ => Bytes.IsCut part f.bytes

theorem Underway.unfinished {size : Nat} {fs : List Frame} {tail part : Bytes}
    (h : Underway fs tail part) (hfs : ∀ f ∈ fs, f.Servable size) (htail : Unfinished size tail) :
    Unfinished size part := by
  cases fs with
  | nil => exact htail.mono h
  | cons f fs => exact ⟨f, hfs f (List.mem_cons_self ..), h⟩

/-- When everything has arrived, nothing but the unfinished request is underway. -/
theorem Underway.eq_nil {fs : List Frame} {tail : Bytes}
    (h : Underway fs tail (framesBytes fs ++ tail)) : fs = [] := by
  cases fs with
  | nil => rfl
  | cons f fs =>
    have hlt := h.2
    rw [framesBytes_cons, List.append_assoc, List.length_append] at hlt
    omega

/-- **What has arrived** is some of the requests and a beginning of the next. -/
theorem exists_underway {fs : List Frame} {tail arrived : Bytes}
    (h : arrived <+: framesBytes fs ++ tail) :
    ∃ done rest part, fs = done ++ rest ∧ arrived = framesBytes done ++ part ∧
      Underway rest tail part := by
  induction fs generalizing arrived with
  | nil => exact ⟨[], [], arrived, rfl, rfl, h⟩
  | cons f fs ih =>
    rw [framesBytes_cons, List.append_assoc] at h
    rcases Nat.lt_or_ge arrived.length f.bytes.length with hlt | hge
    · have hpart : arrived <+: f.bytes :=
        List.prefix_of_prefix_length_le h (List.prefix_append ..) hlt.le
      exact ⟨[], f :: fs, arrived, rfl, rfl, hpart, hlt⟩
    · obtain ⟨more, rfl⟩ := List.prefix_of_prefix_length_le (List.prefix_append ..) h hge
      obtain ⟨done, rest, part, rfl, rfl, hpart⟩ := ih ((List.prefix_append_right_inj _).1 h)
      refine ⟨f :: done, rest, part, rfl, ?_, hpart⟩
      rw [framesBytes_cons, List.append_assoc]

namespace Session

open Command

/-! ### Answering -/

variable {size : Nat} {s : Session} {fs : List Frame} {tail : Bytes}

/-- The session can serve requests that fit buffers of `size` bytes. -/
structure Ready (size : Nat) (s : Session) : Prop where
  bufferSize : s.bufferSize = size
  growable : s.arena.growable = true
  calm : s.outlet.Calm

/-- What is unfinished leaves room to read more. -/
theorem Ready.not_isFull (hs : s.Ready size) (h : Unfinished size s.buffered) :
    ¬s.isFull = true := by
  have hlt := h.length_lt
  rw [isFull, beq_iff_eq, hs.bufferSize]
  omega

/-- The session `s'` is `s` after it answered the requests `fs`, with `part` in the buffer. -/
structure Answers (size : Nat) (s : Session) (fs : List Frame) (part : Bytes) (s' : Session) :
    Prop where
  ready : s'.Ready size
  buffered : s'.buffered = part
  store : s'.store = (executeAll (fs.map Frame.args) s.store).2
  output : s'.output = s.output ++ repliesBytes (fs.map Frame.args) s.store

theorem Answers.trans {s₁ s₂ : Session} {fs₁ fs₂ : List Frame} {part₁ part₂ : Bytes}
    (h₁ : s.Answers size fs₁ part₁ s₁) (h₂ : s₁.Answers size fs₂ part₂ s₂) :
    s.Answers size (fs₁ ++ fs₂) part₂ s₂ where
  ready := h₂.ready
  buffered := h₂.buffered
  store := by rw [h₂.store, h₁.store, List.map_append, executeAll_append_snd]
  output := by
    rw [h₂.output, h₁.output, h₁.store, List.map_append, repliesBytes_append, List.append_assoc]

/-- Bytes that fit the receive buffer fit in memory. -/
theorem addressable_of_le (hsize : size ≤ 4 * 1024 * 1024) {bytes : Bytes}
    (h : bytes.length ≤ size) : bytes.Addressable := by
  unfold Bytes.Addressable
  omega

/-- The arena of a session pays for everything that its buffer holds. -/
theorem cost_le_limit (hsize : size ≤ 4 * 1024 * 1024) (hs : s.Ready size)
    (hfs : ∀ f ∈ fs, f.Servable size) (hlen : (framesBytes fs).length ≤ size) :
    s.arena.reset.used + Batch.cost fs ≤ s.arena.reset.limit := by
  have hcost := Batch.cost_le_maxCapacity (fun f hf => (hfs f hf).wellFormed)
    (hlen.trans (hsize.trans (by decide)))
  rw [Arena.used_reset, Arena.limit_reset, Arena.limit, if_pos hs.growable, Nat.zero_add]
  exact hcost

/-- What is unfinished is not answered. -/
theorem answer_unfinished (hsize : size ≤ 4 * 1024 * 1024) (hs : s.Ready size)
    (h : Unfinished size s.buffered) :
    ∃ s', s.answer = (.ok (), s') ∧ s.Answers size [] s.buffered s' := by
  have hnothing (a : Arena) (hgrow : a.growable = true) :
      s.Answers size [] s.buffered { s with arena := a } :=
    ⟨⟨hs.bufferSize, hgrow, hs.calm⟩, rfl, rfl, (List.append_nil _).symm⟩
  rw [Session.answer]
  dsimp only
  split
  · exact ⟨s, rfl, hnothing s.arena hs.growable⟩
  · have hnone : ∀ f ∈ ([] : List Frame), f.WellFormed (Limits.ofBuffer size) := by simp
    obtain ⟨b, a', -, hempty, hgrow, hread⟩ := Batch.read_frames hnone
      (addressable_of_le hsize h.length_lt.le) (h.request (by omega))
      (cost_le_limit hsize hs (by simp) (Nat.zero_le _))
    rw [framesBytes_nil, List.nil_append, Batch.close, if_pos (hempty.2 rfl),
      ← hs.bufferSize] at hread
    rw [hread]
    exact ⟨_, rfl, hnothing a' (hgrow.trans hs.growable)⟩

/-- **Complete requests in the receive buffer are answered**, and what is unfinished stays. -/
theorem answer_frames (hsize : size ≤ 4 * 1024 * 1024) (hs : s.Ready size)
    (hfs : ∀ f ∈ fs, f.Servable size) (htail : Unfinished size tail)
    (hbuffered : s.buffered = framesBytes fs ++ tail) (hfits : s.buffered.length ≤ size) :
    ∃ s', s.answer = (.ok (), s') ∧ s.Answers size fs tail s' := by
  by_cases hne : fs = []
  · subst hne
    rw [framesBytes_nil, List.nil_append] at hbuffered
    subst hbuffered
    exact answer_unfinished hsize hs htail
  · have hallowed : ∀ f ∈ fs, f.WellFormed (Limits.ofBuffer size) := fun f hf => (hfs f hf).allowed
    have hlen : (framesBytes fs).length ≤ size := by
      rw [hbuffered, List.length_append] at hfits
      omega
    obtain ⟨k, hk⟩ : ∃ k, (framesBytes fs).length = k + 1 :=
      Nat.exists_eq_add_one.2 (List.length_pos_iff.2 (framesBytes_ne_nil hne))
    obtain ⟨b, a', htoList, hempty, hgrow, hread⟩ :=
      Batch.read_frames hallowed (addressable_of_le hsize (hbuffered ▸ hfits))
        (htail.request (by omega)) (cost_le_limit hsize hs hfs hlen)
    have hargs : b.toList.map Slots.toList = fs.map Frame.args := by
      rw [htoList, map_toList_requestOf]
    obtain ⟨s₁, hanswer, hs₁⟩ :=
      answerBatch_calm (show ({ s with arena := a' } : Session).outlet.Calm from hs.calm) b
    rw [hargs] at hs₁
    have hready : ({ s₁.counting b.used with buffered := tail } : Session).Ready size :=
      ⟨hs₁.bufferSize.trans hs.bufferSize, hs₁.growable.trans (hgrow.trans hs.growable),
        hs₁.calm hs.calm⟩
    have hfirst : s.Answers size fs tail { s₁.counting b.used with buffered := tail } :=
      ⟨hready, rfl, hs₁.store, hs₁.output⟩
    -- a second look at the buffer finds the unfinished request alone
    obtain ⟨s₂, hrest, hs₂⟩ := answer_unfinished hsize hready htail
    refine ⟨s₂, ?_, by simpa using hfirst.trans hs₂⟩
    rw [Batch.close, if_neg (mt hempty.1 hne), hk, ← hbuffered, ← hs.bufferSize] at hread
    have hdrop : s.buffered.drop (k + 1) = tail := by
      rw [← hk, hbuffered, List.drop_left]
    rw [Session.answer]
    dsimp only
    rw [dif_neg (by rw [hbuffered]; simp [framesBytes_ne_nil hne]), hread]
    dsimp only
    rw [respond, hanswer]
    dsimp only
    rw [hdrop]
    exact hrest

/-! ### Receiving -/

/-- A read that completes requests has them answered. -/
theorem receive_frames (hsize : size ≤ 4 * 1024 * 1024) (hs : s.Ready size)
    (hfs : ∀ f ∈ fs, f.Servable size) (htail : Unfinished size tail) {bytes : Bytes}
    (hbuffered : s.buffered ++ bytes = framesBytes fs ++ tail)
    (hfits : (s.buffered ++ bytes).length ≤ size) :
    ∃ s', s.receive bytes = (.ok (), s') ∧ s.Answers size fs tail s' := by
  have hready : ({ s with
      traffic := { s.traffic with bytesRead := s.traffic.bytesRead + bytes.length }
      events := s.events.push (.received bytes.length)
      buffered := s.buffered ++ bytes } : Session).Ready size :=
    ⟨hs.bufferSize, hs.growable, hs.calm⟩
  obtain ⟨s', hanswer, hs'⟩ := answer_frames hsize hready hfs htail hbuffered hfits
  refine ⟨s', hanswer, hs'.ready, hs'.buffered, hs'.store, ?_⟩
  rw [hs'.output]
  simp [output, Event.sentBytes]

/-- **An arrival has its requests answered, by however many reads it is taken in.** -/
theorem feed_frames (hsize : size ≤ 4 * 1024 * 1024) (hs : s.Ready size)
    (hfs : ∀ f ∈ fs, f.Servable size) (htail : Unfinished size tail) {bytes : Bytes}
    (hunder : Underway fs tail s.buffered)
    (harrived : s.buffered ++ bytes <+: framesBytes fs ++ tail) :
    ∃ done rest part s', fs = done ++ rest ∧ s.buffered ++ bytes = framesBytes done ++ part ∧
      Underway rest tail part ∧ s.feed bytes = (.ok (), s') ∧ s.Answers size done part s' := by
  induction hn : bytes.length using Nat.strong_induction_on generalizing s fs bytes with
  | _ n ih =>
    by_cases hnil : bytes = []
    · refine ⟨[], fs, s.buffered, s, rfl, by simp [hnil], hunder, ?_, hs, rfl, rfl, ?_⟩
      · rw [feed, if_pos (by simpa using hnil)]
      · exact (List.append_nil _).symm
    · -- the first read takes in what there is room for
      have hlt := (hunder.unfinished hfs htail).length_lt
      have hpos := List.length_pos_iff.2 hnil
      generalize hroom : size - s.buffered.length = room
      have hfirst : s.buffered ++ bytes.take room <+: framesBytes fs ++ tail := by
        refine List.IsPrefix.trans ?_ harrived
        exact (List.prefix_append_right_inj _).2 (List.take_prefix ..)
      obtain ⟨done₁, rest₁, part₁, rfl, harrived₁, hunder₁⟩ := exists_underway hfirst
      obtain ⟨hdone₁, hrest₁⟩ := List.forall_mem_append.1 hfs
      obtain ⟨s₁, hreceive, hs₁⟩ := receive_frames hsize hs hdone₁
        (hunder₁.unfinished hrest₁ htail) harrived₁
        (by rw [List.length_append, List.length_take]; omega)
      have hcut : s.buffered ++ bytes = framesBytes done₁ ++ (part₁ ++ bytes.drop room) := by
        rw [← List.append_assoc, ← harrived₁, List.append_assoc, List.take_append_drop]
      have hmore : s₁.buffered ++ bytes.drop room <+: framesBytes rest₁ ++ tail := by
        rw [hcut, framesBytes_append, List.append_assoc, List.prefix_append_right_inj] at harrived
        rw [hs₁.buffered]
        exact harrived
      obtain ⟨done₂, rest, part, s₂, rfl, harrived₂, hunder₂, hfeed, hs₂⟩ :=
        ih _ (by rw [List.length_drop]; omega) hs₁.ready hrest₁ (hs₁.buffered.symm ▸ hunder₁)
          hmore rfl
      refine ⟨done₁ ++ done₂, rest, part, s₂, (List.append_assoc ..).symm, ?_, hunder₂, ?_,
        hs₁.trans hs₂⟩
      · rw [hcut, framesBytes_append, List.append_assoc, ← harrived₂, hs₁.buffered]
      · rw [feed, if_neg (by simpa using hnil), hs.bufferSize, hroom]
        dsimp only
        rw [if_neg (by omega), hreceive]
        exact hfeed

end Session

/-! ### Whole sessions -/

/-- The bytes that arrive. -/
def Arrival.bytes : Arrival → Bytes
  | .data bytes => bytes
  | _ => []

/-- The stream is not ready at first, or some bytes arrive. -/
def Arrival.IsCalm : Arrival → Prop
  | .data bytes => bytes ≠ []
  | .pending => True
  | .fail _ => False
  | .shutdown => False

instance : DecidablePred Arrival.IsCalm
  | .data bytes => inferInstanceAs (Decidable (bytes ≠ []))
  | .pending => inferInstanceAs (Decidable True)
  | .fail _ => inferInstanceAs (Decidable False)
  | .shutdown => inferInstanceAs (Decidable False)

namespace Session

open Command

variable {size : Nat} {s : Session} {fs : List Frame} {tail : Bytes}

/-- **A session runs until its stream ends**, and has answered all requests by then. -/
theorem serve_frames (hsize : size ≤ 4 * 1024 * 1024) (hs : s.Ready size)
    (hfs : ∀ f ∈ fs, f.Servable size) (htail : Unfinished size tail) {arrivals : List Arrival}
    (hcalm : ∀ e ∈ arrivals, e.IsCalm) (hunder : Underway fs tail s.buffered)
    (hstream : s.buffered ++ arrivals.flatMap Arrival.bytes = framesBytes fs ++ tail) :
    ∃ s', s.serve arrivals = (if tail = [] then .left else .cutOff, s') ∧
      s.Answers size fs tail s' := by
  induction arrivals generalizing s fs with
  | nil =>
    rw [List.flatMap_nil, List.append_nil] at hstream
    obtain rfl := (hstream ▸ hunder : Underway fs tail (framesBytes fs ++ tail)).eq_nil
    rw [framesBytes_nil, List.nil_append] at hstream
    rw [serve, if_neg (hs.not_isFull (hunder.unfinished hfs htail)), finish]
    simp only [List.isEmpty_iff, hstream]
    refine ⟨_, rfl, ⟨hs.bufferSize, hs.growable, hs.calm⟩, rfl, rfl, ?_⟩
    simp [output, Event.sentBytes]
  | cons e arrivals ih =>
    obtain ⟨he, hrest⟩ := List.forall_mem_cons.1 hcalm
    have hroom := hs.not_isFull (hunder.unfinished hfs htail)
    rw [List.flatMap_cons] at hstream
    cases e with
    | pending =>
      rw [serve, if_neg hroom]
      exact ih hs hfs hrest hunder hstream
    | fail error => exact absurd he id
    | shutdown => exact absurd he id
    | data bytes =>
      have hne : bytes ≠ [] := he
      rw [Arrival.bytes, ← List.append_assoc] at hstream
      obtain ⟨done, rest, part, s₁, rfl, harrived, hunder₁, hfeed, hs₁⟩ :=
        feed_frames hsize hs hfs htail hunder ⟨_, hstream⟩
      obtain ⟨-, hfs₁⟩ := List.forall_mem_append.1 hfs
      rw [harrived, framesBytes_append, List.append_assoc, List.append_assoc,
        List.append_cancel_left_eq, ← hs₁.buffered] at hstream
      obtain ⟨s₂, hserve, hs₂⟩ :=
        ih hs₁.ready hfs₁ hrest (hs₁.buffered.symm ▸ hunder₁) hstream
      refine ⟨s₂, ?_, hs₁.trans hs₂⟩
      rw [serve, if_neg hroom, if_neg (by simpa using hne), hfeed]
      exact hserve

/-- **Serving requests is executing them one after another, however they arrive.** The stream holds
some requests and possibly a beginning of another, and is cut into arrivals in any way. The client
gets the replies of the requests in order, the store is the one that executing them leaves, and the
session fails only if the stream ends inside a request. -/
theorem run_frames {sizes : Sizes} {script : Script} (hsize : sizes.buffer ≤ 4 * 1024 * 1024)
    (harena : Arena.isValidCapacity sizes.arena = true)
    (hfs : ∀ f ∈ fs, f.Servable sizes.buffer) {last : Frame} (hlast : last.Servable sizes.buffer)
    (htail : Bytes.IsCut tail last.bytes) (harrivals : ∀ e ∈ script.arrivals, e.IsCalm)
    (hstream : script.arrivals.flatMap Arrival.bytes = framesBytes fs ++ tail)
    (hcalm : script.outlet.Calm) (hfresh : script.outlet.unflushed = [])
    (hup : script.shutDown = false) (store : Store) (traffic : Traffic) :
    let t := run sizes script store traffic
    t.output = repliesBytes (fs.map Frame.args) store ∧
      t.store = (executeAll (fs.map Frame.args) store).2 ∧
      t.result = if tail = [] then .ok () else .error .cutOff := by
  intro t
  have hcut : Unfinished sizes.buffer tail := ⟨last, hlast, htail⟩
  have hunder : Underway fs tail [] := by
    cases fs with
    | nil => exact List.nil_prefix
    | cons f fs => exact Bytes.isCut_nil f.bytes_ne_nil
  have hstart := start_eq (hsize.trans (by decide)) harena script.outlet store traffic.opened
  generalize hnew : (⟨sizes.buffer, ⟨sizes.arena, 0, true, harena, Nat.zero_le _⟩, [],
    script.outlet, store, traffic.opened, #[]⟩ : Session) = s at hstart
  have hready : s.Ready sizes.buffer := hnew ▸ ⟨rfl, rfl, hcalm⟩
  have hbuffered : s.buffered = [] := hnew ▸ rfl
  obtain ⟨s', hserve, hs'⟩ := serve_frames hsize hready hfs hcut harrivals
    (hbuffered.symm ▸ hunder) (by rw [hbuffered, List.nil_append, hstream])
  have hrun : t = s'.transcript (if tail = [] then .left else .cutOff) := by
    simp only [t, run, hup, hstart, hserve, Bool.false_eq_true, if_false]
  rw [hrun]
  have hstore : s.store = store := hnew ▸ rfl
  have houtput : s.output = [] := by
    rw [← hnew]
    exact hfresh
  refine ⟨?_, ?_, ?_⟩
  · have hanswered := hs'.output
    rw [houtput, hstore, List.nil_append] at hanswered
    exact hanswered
  · rw [← hstore]
    exact hs'.store
  · by_cases hnil : tail = []
    · rw [if_pos hnil, if_pos hnil]
      rfl
    · rw [if_neg hnil, if_neg hnil]
      rfl

/-- A ping and the beginning of a request, in three pieces, to a stream that takes single bytes. -/
theorem run_split_ping :
    let sizes : Sizes := ⟨512, 1024⟩
    let ping := Frame.ping (Bytes.ascii "PiNg")
    let last := Frame.array (Bytes.ascii "01") [⟨Bytes.ascii "4", Bytes.ascii "PING"⟩]
    let tail := Bytes.ascii "*01\r\n$4\r\nPI"
    let arrivals := [Arrival.data (Bytes.ascii "Pi"), .pending, .data (Bytes.ascii "Ng\r\n*0"),
      .data (Bytes.ascii "1\r\n$4\r\nPI")]
    let script : Script := ⟨arrivals, ⟨List.replicate 7 (.ready 1), [.pending], []⟩, false⟩
    let t := run sizes script (Store.create 4) Traffic.none
    ping.Servable sizes.buffer ∧ last.Servable sizes.buffer ∧ Bytes.IsCut tail last.bytes ∧
      script.arrivals.flatMap Arrival.bytes = framesBytes [ping] ++ tail ∧
      t.output = Bytes.ascii "+PONG\r\n" ∧ t.store = Store.create 4 ∧
      t.result = .error .cutOff := by
  intro sizes ping last tail arrivals script t
  have hsize : sizes.buffer ≤ 4 * 1024 * 1024 := by decide
  have harena : Arena.isValidCapacity sizes.arena = true := by decide
  have hping : ∀ f ∈ [ping], f.Servable sizes.buffer := by decide
  have hlast : last.Servable sizes.buffer := by decide
  have htail : Bytes.IsCut tail last.bytes := ⟨by decide, by decide⟩
  have harrivals : ∀ e ∈ script.arrivals, e.IsCalm := by decide
  have hstream : script.arrivals.flatMap Arrival.bytes = framesBytes [ping] ++ tail := by decide
  have hcalm : script.outlet.Calm := by decide
  have hrun := run_frames hsize harena hping hlast htail harrivals hstream hcalm rfl rfl
    (Store.create 4) Traffic.none
  exact ⟨hping ping (List.mem_singleton_self _), hlast, htail, hstream, hrun⟩

end Session
end RespStore
