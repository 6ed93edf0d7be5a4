import RespStore.Proofs.Wire.Batch

/-!
# RespStore.Proofs.Wire.Deferral

Whether the requests that were read survive what comes after them. Malformed bytes and arguments
that find no room only end the batch, which then holds the frames before them
(`Paid.readFrom_cases`). One failure is not deferred: where the arena can pay for the arguments of
a request and the batch finds no room to move to, the whole batch is lost. `Overgrown` describes
that place in the bytes by the cost of the frames, and nothing else loses a batch.
-/

namespace RespStore.Batch

open Wire

variable {limits : Limits} {start a : Arena} {fs : List Frame} {b : Batch}

/-- The loop takes in the frames `gs` after `fs` and ends with the batch `b'`. Whatever frame comes
next, its arguments cannot be paid for. -/
structure Ends (limits : Limits) (start : Arena) (fs : List Frame) (b : Batch) (a : Arena)
    (bs : Bytes) (consumed : Nat) (gs : List Frame) (b' : Batch) (a' : Arena) : Prop where
  wellFormed : ∀ g ∈ gs, g.WellFormed limits
  begins : framesBytes gs <+: bs
  paid : Paid start (fs ++ gs) b' a'
  unpaid : ∀ g : Frame, g.WellFormed limits → framesBytes (gs ++ [g]) <+: bs →
    start.limit < start.used + (cost (fs ++ gs) + argsCost [g])
  read : readFrom limits b a bs consumed =
    (.ok (some ⟨b', consumed + (framesBytes gs).length⟩), a')

/-- The loop ends where it can take in no frame. -/
theorem Ends.of_stop {bs : Bytes} {consumed : Nat} {a' : Arena} (hpaid : Paid start fs b a')
    (hunpaid : ∀ g : Frame, g.WellFormed limits → g.bytes <+: bs →
      start.limit < start.used + (cost fs + argsCost [g]))
    (hread : readFrom limits b a bs consumed = (.ok (some ⟨b, consumed⟩), a')) :
    Ends limits start fs b a bs consumed [] b a' := by
  refine ⟨by simp, List.nil_prefix, ?_, ?_, hread⟩
  · rw [List.append_nil]
    exact hpaid
  · intro g hg hbegins
    rw [List.nil_append, framesBytes_cons, framesBytes_nil, List.append_nil] at hbegins
    rw [List.append_nil]
    exact hunpaid g hg hbegins

/-- The loop ends where it does after taking in one frame. -/
theorem Ends.cons {f : Frame} {rest : Bytes} {consumed : Nat} {gs : List Frame}
    {b₁ b' : Batch} {a₁ a' : Arena} (hf : f.WellFormed limits)
    (hread : readFrom limits b a (f.bytes ++ rest) consumed =
      readFrom limits b₁ a₁ rest (consumed + f.bytes.length))
    (h : Ends limits start (fs ++ [f]) b₁ a₁ rest (consumed + f.bytes.length) gs b' a') :
    Ends limits start fs b a (f.bytes ++ rest) consumed (f :: gs) b' a' := by
  refine ⟨List.forall_mem_cons.2 ⟨hf, h.wellFormed⟩, ?_, ?_, ?_, ?_⟩
  · rw [framesBytes_cons, List.prefix_append_right_inj]
    exact h.begins
  · rw [List.append_cons]
    exact h.paid
  · intro g hg hbegins
    rw [List.cons_append, framesBytes_cons, List.prefix_append_right_inj] at hbegins
    rw [List.append_cons]
    exact h.unpaid g hg hbegins
  · rw [hread, h.read, framesBytes_cons, List.length_append, Nat.add_assoc]

/-- Frames that begin the same bytes cost the same: if the arguments of what stands there were
refused, they are too dear. -/
theorem Paid.unpaid_of_failed (h : Paid start fs b a) {bs : Bytes} (hbs : bs.Addressable)
    {error : ParseError} {a' : Arena} (hrequest : request limits a bs = (.failed error, a'))
    (g : Frame) (hg : g.WellFormed limits) (hbegins : g.bytes <+: bs) :
    start.limit < start.used + (cost fs + argsCost [g]) := by
  obtain ⟨rest, rfl⟩ := hbegins
  cases h.step hg hbs with
  | taken hfound =>
    rw [hfound] at hrequest
    cases hrequest
  | unpaid hroom => exact hroom
  | stuck _ _ hfound =>
    rw [hfound] at hrequest
    cases hrequest

/-- **Where the loop ends**, once the batch is not empty. It ends with all the frames that can be
paid for, unless it comes to a frame whose arguments can be paid for and whose slot cannot. -/
theorem Paid.readFrom_cases (hl : limits.maxBulk ≤ Limits.standard.maxBulk)
    (h : Paid start fs b a) (hne : fs ≠ []) {bs : Bytes} (hbs : bs.Addressable) (consumed : Nat) :
    (∃ gs b' a', Ends limits start fs b a bs consumed gs b' a') ∨
      ∃ gs g, (∀ f ∈ gs ++ [g], f.WellFormed limits) ∧ framesBytes (gs ++ [g]) <+: bs ∧
        start.used + (cost (fs ++ gs) + argsCost [g]) ≤ start.limit ∧
        start.limit < start.used + cost (fs ++ gs ++ [g]) := by
  induction hn : bs.length using Nat.strong_induction_on generalizing bs fs b a consumed with
  | _ n ih =>
    by_cases hframe : ∃ f : Frame, f.WellFormed limits ∧ f.bytes <+: bs
    · obtain ⟨f, hf, rest, rfl⟩ := hframe
      have hbytes : f.bytes ++ rest ≠ [] :=
        List.append_ne_nil_of_left_ne_nil f.bytes_ne_nil _
      cases h.step hf hbs with
      | taken hrequest hpush hpaid =>
        have hread := readFrom_taken hbytes hrequest hpush consumed
        rw [List.drop_left] at hread
        have hshorter : rest.length < n := by
          have := List.length_pos_iff.2 f.bytes_ne_nil
          rw [← hn, List.length_append]
          omega
        rcases ih _ hshorter hpaid (by simp) hbs.right (consumed + f.bytes.length) rfl with
          ⟨gs, b', a', hends⟩ | ⟨gs, g, hgs, hbegins, hargs, hfull⟩
        · exact .inl ⟨f :: gs, b', a', hends.cons hf hread⟩
        · rw [← List.append_cons] at hargs hfull
          refine .inr ⟨f :: gs, g, List.forall_mem_cons.2 ⟨hf, hgs⟩, ?_, hargs, hfull⟩
          rw [List.cons_append, framesBytes_cons, List.prefix_append_right_inj]
          exact hbegins
      | unpaid hroom hrequest hpaid =>
        have hunpaid := h.unpaid_of_failed hbs hrequest
        exact .inl ⟨[], b, _, .of_stop hpaid hunpaid (h.readFrom_deferred hne hrequest rfl _)⟩
      | stuck hpaid hfull =>
        refine .inr ⟨[], f, by simpa using hf, ?_, ?_, ?_⟩
        · rw [List.nil_append, framesBytes_cons, List.prefix_append_right_inj]
          exact List.nil_prefix
        · rw [List.append_nil]
          exact hpaid
        · rw [List.append_nil]
          exact hfull
    · have hnone : ∀ f : Frame, f.WellFormed limits → ¬f.bytes <+: bs := by
        intro f hf hbegins
        exact hframe ⟨f, hf, hbegins⟩
      have hread : readFrom limits b a bs consumed = (.ok (some ⟨b, consumed⟩), a) := by
        rcases request_of_no_frame (Limits.addressable_of_le hl) hbs hnone with
          hrequest | ⟨error, hcrash, hrequest⟩
        · rw [readFrom_incomplete (hrequest a), h.close hne]
        · exact h.readFrom_deferred hne (hrequest a) hcrash consumed
      refine .inl ⟨[], b, a, .of_stop h ?_ hread⟩
      intro g hg hbegins
      exact absurd hbegins (hnone g hg)

/-! ### The batch that cannot grow -/

/-- The bytes begin with frames up to one whose arguments the arena can pay for, but not the slots
that the batch needs to hold it as well. -/
def Overgrown (limits : Limits) (a : Arena) (bs : Bytes) : Prop :=
  ∃ (fs : List Frame) (f : Frame), (∀ g ∈ fs ++ [f], g.WellFormed limits) ∧
    framesBytes (fs ++ [f]) <+: bs ∧
    a.used + (cost fs + argsCost [f]) ≤ a.limit ∧ a.limit < a.used + cost (fs ++ [f])

/-- Only a batch that has used up its slots grows, so there are sixteen frames before the one that
has no place. -/
theorem Overgrown.exists_frames {bs : Bytes} (h : Overgrown limits a bs) :
    ∃ fs : List Frame, 17 ≤ fs.length ∧ (∀ f ∈ fs, f.WellFormed limits) ∧
      framesBytes fs <+: bs := by
  obtain ⟨fs, f, hfs, hbegins, hargs, hfull⟩ := h
  have hslots : fs.length = capacityFor fs.length := by
    refine Nat.le_antisymm (le_capacityFor _) (Nat.le_of_not_lt ?_)
    intro hspare
    rw [cost_append_of_lt hspare] at hfull
    omega
  have hmin : 16 ≤ capacityFor fs.length := Nat.le_max_left ..
  refine ⟨fs ++ [f], ?_, hfs, hbegins⟩
  rw [List.length_append, List.length_singleton]
  omega

theorem Overgrown.length_le {bs : Bytes} (h : Overgrown limits a bs) : 102 ≤ bs.length := by
  obtain ⟨fs, hcount, hfs, hbegins⟩ := h.exists_frames
  have := length_le_argsCount hfs
  have := six_mul_argsCount_le hfs
  have := hbegins.length_le
  omega

/-- An overgrown batch is lost. -/
theorem read_of_overgrown {bs : Bytes} (hbs : bs.Addressable) (h : Overgrown limits a bs) :
    ∃ error a', Batch.read limits a bs = (.error (.arena error), a') := by
  obtain ⟨fs, f, hfs, ⟨rest, rfl⟩, hargs, hfull⟩ := h
  obtain ⟨hfs, hf⟩ := List.forall_mem_append.1 hfs
  have hf := hf f (List.mem_singleton_self f)
  have hbytes : f.bytes ++ rest ≠ [] := List.append_ne_nil_of_left_ne_nil f.bytes_ne_nil _
  rw [framesBytes_append, framesBytes_cons, framesBytes_nil, List.append_nil,
    List.append_assoc] at hbs ⊢
  have hpayable : a.used + cost fs ≤ a.limit := by omega
  obtain ⟨b, a₁, hpaid, hread⟩ := read_frames_append hfs hbs hpayable
  rw [hread]
  cases hpaid.step hf hbs.right with
  | @taken _ _ a' _ _ hpaid =>
    have hused := a'.used_le.trans a'.capacity_le_limit
    rw [hpaid.spends.used, hpaid.spends.limit] at hused
    omega
  | unpaid hroom => omega
  | stuck _ _ hrequest hpush => exact ⟨_, _, readFrom_stuck hbytes hrequest hpush _⟩

/-- **A first frame that the arena can pay for** is taken in and paid for, with the frames after it,
unless the batch is overgrown. -/
theorem paid_of_first (hl : limits.maxBulk ≤ Limits.standard.maxBulk) {bs : Bytes}
    (hbs : bs.Addressable) {f : Frame} (hf : f.WellFormed limits) (hfirst : f.bytes <+: bs)
    (hroom : a.used + cost [f] ≤ a.limit) :
    (∃ gs b a', (∀ g ∈ f :: gs, g.WellFormed limits) ∧ framesBytes (f :: gs) <+: bs ∧
        Paid a (f :: gs) b a' ∧
        (∀ g : Frame, g.WellFormed limits → framesBytes (f :: gs ++ [g]) <+: bs →
          a.limit < a.used + (cost (f :: gs) + argsCost [g])) ∧
        Batch.read limits a bs = (.ok (some ⟨b, (framesBytes (f :: gs)).length⟩), a')) ∨
      Overgrown limits a bs := by
  obtain ⟨rest, rfl⟩ := hfirst
  have hnext (gs : List Frame) :
      framesBytes (f :: gs) <+: f.bytes ++ rest ↔ framesBytes gs <+: rest := by
    rw [framesBytes_cons, List.prefix_append_right_inj]
  have hone : framesBytes [f] ++ rest = f.bytes ++ rest := by
    rw [framesBytes_cons, framesBytes_nil, List.append_nil]
  have hlist : ∀ g ∈ [f], g.WellFormed limits := by simpa using hf
  obtain ⟨b, a₁, hpaid, hread⟩ := read_frames_append hlist (hone.symm ▸ hbs) hroom
  rw [hone] at hread
  rcases hpaid.readFrom_cases hl (List.cons_ne_nil f []) hbs.right (framesBytes [f]).length with
    ⟨gs, b', a', hends⟩ | ⟨gs, g, hgs, hbegins, hargs, hfull⟩
  · refine .inl ⟨gs, b', a', List.forall_mem_cons.2 ⟨hf, hends.wellFormed⟩,
      (hnext gs).2 hends.begins, hends.paid, ?_, ?_⟩
    · intro g hg hbegins
      exact hends.unpaid g hg ((hnext _).1 hbegins)
    · rw [hread, hends.read, ← List.length_append, ← framesBytes_append]
      rfl
  · exact .inr ⟨f :: gs, g, List.forall_mem_cons.2 ⟨hf, hgs⟩, (hnext _).2 hbegins, hargs, hfull⟩

/-- Bytes that begin with a frame that the arena can pay for give a batch with that frame and those
after it, unless the batch is overgrown. -/
theorem read_of_first (hl : limits.maxBulk ≤ Limits.standard.maxBulk) {bs : Bytes}
    (hbs : bs.Addressable) {f : Frame} (hf : f.WellFormed limits) (hfirst : f.bytes <+: bs)
    (hroom : a.used + cost [f] ≤ a.limit) :
    (∃ gs b a', (∀ g ∈ f :: gs, g.WellFormed limits) ∧ framesBytes (f :: gs) <+: bs ∧
        b.toList = (f :: gs).map (fun g => requestOf g.args) ∧
        (∀ g : Frame, g.WellFormed limits → framesBytes (f :: gs ++ [g]) <+: bs →
          a.limit < a.used + (cost (f :: gs) + argsCost [g])) ∧
        Batch.read limits a bs = (.ok (some ⟨b, (framesBytes (f :: gs)).length⟩), a')) ∨
      Overgrown limits a bs := by
  refine (paid_of_first hl hbs hf hfirst hroom).imp_left ?_
  intro hread
  obtain ⟨gs, b, a', hgs, hbegins, hpaid, hunpaid, hread⟩ := hread
  exact ⟨gs, b, a', hgs, hbegins, hpaid.toList, hunpaid, hread⟩

/-- A first frame that the arena cannot pay for is the arena's error. -/
theorem read_of_unpaid {bs : Bytes} (hbs : bs.Addressable) {f : Frame}
    (hf : f.WellFormed limits) (hfirst : f.bytes <+: bs) (hroom : a.limit < a.used + cost [f]) :
    ∃ error a', Batch.read limits a bs = (.error (.arena error), a') := by
  obtain ⟨rest, rfl⟩ := hfirst
  rw [Batch.read]
  rcases reserve_cases a with ⟨-, b, a₁, hreserve, hpaid⟩ | ⟨-, error, a', hreserve⟩
  · rw [hreserve]
    dsimp only
    cases hpaid.step hf hbs with
    | @taken _ _ a' _ _ hpaid =>
      have hused := a'.used_le.trans a'.capacity_le_limit
      rw [hpaid.spends.used, hpaid.spends.limit, List.nil_append] at hused
      omega
    | unpaid _ hrequest hpaid =>
      exact ⟨_, _, readFrom_refused hrequest (.inl (hpaid.isEmpty_iff.2 rfl)) 0⟩
    | stuck _ _ hrequest hpush =>
      have hne : f.bytes ++ rest ≠ [] := List.append_ne_nil_of_left_ne_nil f.bytes_ne_nil _
      exact ⟨_, _, readFrom_stuck hne hrequest hpush 0⟩
  · rw [hreserve]
    exact ⟨error, a', rfl⟩

/-- **A frame that was read is kept, unless the batch is overgrown.** Let the bytes begin with a
frame that the arena can pay for. If the batch is not overgrown it holds that frame and the frames
after it, up to the first whose arguments cannot be paid for or the first bytes that are no frame,
and whatever stands there is left in the buffer. If it is overgrown it is lost. -/
theorem read_keeps_frames (hl : limits.maxBulk ≤ Limits.standard.maxBulk) {bs : Bytes}
    (hbs : bs.Addressable) {f : Frame} (hf : f.WellFormed limits) (hfirst : f.bytes <+: bs)
    (hroom : a.used + cost [f] ≤ a.limit) :
    (¬Overgrown limits a bs →
      ∃ gs b a', (∀ g ∈ f :: gs, g.WellFormed limits) ∧ framesBytes (f :: gs) <+: bs ∧
        b.toList = (f :: gs).map (fun g => requestOf g.args) ∧
        (∀ g : Frame, g.WellFormed limits → framesBytes (f :: gs ++ [g]) <+: bs →
          a.limit < a.used + (cost (f :: gs) + argsCost [g])) ∧
        Batch.read limits a bs = (.ok (some ⟨b, (framesBytes (f :: gs)).length⟩), a')) ∧
    (Overgrown limits a bs →
      ∃ error a', Batch.read limits a bs = (.error (.arena error), a')) :=
  ⟨(read_of_first hl hbs hf hfirst hroom).resolve_right, read_of_overgrown hbs⟩

/-- Bytes that are no request do not take away the ping before them. -/
theorem read_keeps_ping :
    let a : Arena := ⟨1024, 0, false, by decide, by decide⟩
    let ping := Frame.ping pingWord
    let bs := ping.bytes ++ Bytes.ascii "?"
    ping.WellFormed Limits.standard ∧ ping.bytes <+: bs ∧ a.used + cost [ping] ≤ a.limit ∧
      ¬Overgrown Limits.standard a bs ∧
      ∃ gs b a', b.toList = (ping :: gs).map (fun g => requestOf g.args) ∧
        Batch.read Limits.standard a bs =
          (.ok (some ⟨b, (framesBytes (ping :: gs)).length⟩), a') := by
  intro a ping bs
  have hping : ping.WellFormed Limits.standard := by decide
  have hfirst : ping.bytes <+: bs := by decide
  have hroom : a.used + cost [ping] ≤ a.limit := by decide
  have hshort : ¬Overgrown Limits.standard a bs := fun h => absurd h.length_le (by decide)
  obtain ⟨gs, b, a', -, -, htoList, -, hread⟩ :=
    (read_keeps_frames (Nat.le_refl _) (by decide) hping hfirst hroom).1 hshort
  exact ⟨hping, hfirst, hroom, hshort, gs, b, a', htoList, hread⟩

/-- **Sixteen requests can be lost to the seventeenth.** The arena can pay for every argument here,
and not for the move to thirty-two slots. -/
theorem read_loses_sixteen_pings :
    let a : Arena := ⟨1024, 0, false, by decide, by decide⟩
    let ping := Frame.ping pingWord
    let bs := framesBytes (List.replicate 17 ping)
    ping.WellFormed Limits.standard ∧ ping.bytes <+: bs ∧ a.used + cost [ping] ≤ a.limit ∧
      ∃ error a', Batch.read Limits.standard a bs = (.error (.arena error), a') := by
  refine ⟨by decide, by decide, by decide, ?_⟩
  refine read_of_overgrown (by decide) ?_
  exact ⟨List.replicate 16 (.ping pingWord), .ping pingWord, by decide, by decide, by decide,
    by decide⟩

end RespStore.Batch
