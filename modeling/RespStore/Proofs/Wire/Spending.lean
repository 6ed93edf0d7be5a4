import RespStore.Proofs.Wire.Division

/-!
# RespStore.Proofs.Wire.Spending

What reading takes from the arena. A frame is paid for when it is taken in, and nothing else is:
bytes that are no frame leave the arena as it was, wherever they stand (`readFrom_append_snd`). So
after a reading the bytes in use have grown by what the batch costs that it gave, and by the first
slots alone where it gave none (`read_spends`).

An argument takes six bytes on the wire at least, so the bytes also tell what reading them can cost.
`read_reset` says up to which number of bytes a growable arena never gets in the way, and
`read_reset_loses_pings` that one byte more can be too many.
-/

namespace RespStore.Batch

open Wire

variable {limits : Limits} {a a' : Arena} {bs rest : Bytes} {fs : List Frame}

/-! ### Bytes that are no frame -/

/-- **Bytes that do not begin with a frame cost nothing**, whatever they declare. -/
theorem request_of_no_frame_snd (hrest : rest.Addressable)
    (hnone : ∀ f : Frame, f.WellFormed limits → ¬f.bytes <+: rest) (a : Arena) :
    (request limits a rest).2 = a := by
  rcases request_cases_of_no_frame hrest hnone with hrequest | ⟨error, hrequest⟩
  · rw [hrequest a]
  · rw [hrequest a]

/-- The loop ends at such bytes. -/
theorem readFrom_of_no_frame_snd (hrest : rest.Addressable)
    (hnone : ∀ f : Frame, f.WellFormed limits → ¬f.bytes <+: rest) (b : Batch) (a : Arena)
    (consumed : Nat) : (readFrom limits b a rest consumed).2 = a := by
  rcases request_cases_of_no_frame hrest hnone with hrequest | ⟨error, hrequest⟩
  · rw [readFrom_incomplete (hrequest a)]
  · rw [readFrom_failed (hrequest a)]
    split <;> rfl

/-- One frame: its arguments are paid for first, and then, if it needs one, its slot. -/
theorem readFrom_frame {f : Frame} (hf : f.WellFormed limits)
    (hbs : Bytes.Addressable (f.bytes ++ rest)) (b : Batch) (a : Arena) (consumed : Nat) :
    readFrom limits b a (f.bytes ++ rest) consumed =
      match a.allocate Request.argument f.args.length with
      | (.ok (), a) =>
        match b.push a (requestOf f.args) with
        | (.ok b, a) => readFrom limits b a rest (consumed + f.bytes.length)
        | (.error error, a) => (.error (.arena error), a)
      | (.error error, a) =>
        if b.isEmpty then (.error (.arena error), a) else (.ok (b.close consumed), a) := by
  have hne : f.bytes ++ rest ≠ [] := List.append_ne_nil_of_left_ne_nil f.bytes_ne_nil _
  have hrequest := request_bytes hf hbs a
  cases hslots : a.allocate Request.argument f.args.length with
  | mk result a₁ =>
    rw [hslots] at hrequest
    cases result with
    | error error =>
      rw [readFrom_failed hrequest, ParseError.isCrash, Bool.or_false]
    | ok =>
      dsimp only
      cases hpush : b.push a₁ (requestOf f.args) with
      | mk result a₂ =>
        cases result with
        | error error => exact readFrom_stuck hne hrequest hpush consumed
        | ok b' =>
          rw [readFrom_taken hne hrequest hpush, List.drop_left]

/-- **What follows the frames has no part in the arena**, as long as it is no frame. -/
theorem readFrom_append_snd (hfs : ∀ f ∈ fs, f.WellFormed limits)
    (hbs : Bytes.Addressable (framesBytes fs ++ rest))
    (hnone : ∀ f : Frame, f.WellFormed limits → ¬f.bytes <+: rest)
    (b : Batch) (a : Arena) (consumed : Nat) :
    (readFrom limits b a (framesBytes fs ++ rest) consumed).2 =
      (readFrom limits b a (framesBytes fs) consumed).2 := by
  induction fs generalizing b a consumed with
  | nil =>
    have hnil : ∀ f : Frame, f.WellFormed limits → ¬f.bytes <+: [] := by
      intro f _ hbegins
      exact f.bytes_ne_nil (List.prefix_nil.1 hbegins)
    rw [framesBytes_nil, List.nil_append, readFrom_of_no_frame_snd hbs.right hnone,
      readFrom_of_no_frame_snd (by decide) hnil]
  | cons f fs ih =>
    obtain ⟨hf, hmore⟩ := List.forall_mem_cons.1 hfs
    rw [framesBytes_cons, List.append_assoc] at hbs ⊢
    have hframes : Bytes.Addressable (f.bytes ++ framesBytes fs) := by
      rw [← List.append_assoc] at hbs
      exact hbs.left
    rw [readFrom_frame hf hbs, readFrom_frame hf hframes]
    split
    · split
      · exact ih hmore hbs.right _ _ _
      · rfl
    · rfl

theorem read_append_snd (hfs : ∀ f ∈ fs, f.WellFormed limits)
    (hbs : Bytes.Addressable (framesBytes fs ++ rest))
    (hnone : ∀ f : Frame, f.WellFormed limits → ¬f.bytes <+: rest) (a : Arena) :
    (Batch.read limits a (framesBytes fs ++ rest)).2 =
      (Batch.read limits a (framesBytes fs)).2 := by
  unfold Batch.read
  split
  · exact readFrom_append_snd hfs hbs hnone _ _ 0
  · rfl

/-! ### What a reading costs -/

/-- **A batch that was read is paid for**, its slots and all its arguments. -/
theorem paid_of_read_some (hl : limits.maxBulk ≤ Limits.standard.maxBulk) (hbs : bs.Addressable)
    {r : Read} (h : Batch.read limits a bs = (.ok (some r), a')) :
    ∃ fs, Paid a fs r.batch a' := by
  obtain ⟨f, hf, hfirst, hroom⟩ := frame_of_read_some hl hbs h
  rcases paid_of_first hl hbs hf hfirst hroom with ⟨gs, b, a₁, -, -, hpaid, -, hread⟩ | hover
  · rw [hread] at h
    cases h
    exact ⟨f :: gs, hpaid⟩
  · obtain ⟨_, _, hread⟩ := read_of_overgrown hbs hover
    rw [hread] at h
    cases h

/-- The cost of the frames can be read off the batch. -/
theorem Paid.cost_eq {b : Batch} (h : Paid a fs b a') :
    cost fs = 24 * (2 * max 16 (PowerOfTwo.ceil b.toList.length) - 16) +
      16 * (b.toList.map fun q => q.toList.length).sum := by
  have hargs : (b.toList.map fun q => q.toList.length).sum = argsCount fs := by
    rw [h.toList, List.map_map, argsCount]
    simp only [Function.comp_def, toList_requestOf]
  rw [hargs, h.toList, List.length_map]
  rfl

/-- Where there is neither a batch nor an error of the arena, only the first slots are paid for. -/
theorem spends_of_read_none (hl : limits.maxBulk ≤ Limits.standard.maxBulk) (hbs : bs.Addressable)
    {result : Except ParseError (Option Read)} (h : Batch.read limits a bs = (result, a'))
    (hresult : result = .ok none ∨ ∃ error, result = .error (.frame error)) :
    a.Spends (cost []) a' := by
  have hnone : ∀ f : Frame, f.WellFormed limits → ¬f.bytes <+: bs := by
    intro f hf hfirst
    rcases read_of_frame hl hbs hf hfirst with ⟨r, _, hread⟩ | ⟨error, _, hread⟩ <;>
      (rw [hread] at h; cases h; simp at hresult)
  rcases reserve_cases a with ⟨-, b, a₁, hreserve, hpaid⟩ | ⟨-, error, a₁, hreserve⟩
  · rw [Batch.read, hreserve] at h
    have harena := readFrom_of_no_frame_snd hbs hnone b a₁ 0
    dsimp only at h
    rw [h] at harena
    obtain rfl : a' = a₁ := harena
    exact hpaid.spends
  · rw [Batch.read, hreserve] at h
    cases h
    simp at hresult

/-- **Reading takes from the arena what it gives back as a batch, and nothing for the rest.** The
bytes in use grow by the slots of the batch, those it has left behind included, and a slot for every
argument. Where reading gives no batch they grow by the sixteen slots that every batch begins with.
What stands behind the frames, be it the beginning of a frame or malformed, costs nothing by itself
and leaves the arena as the frames alone do, with its capacity. -/
theorem read_spends (hl : limits.maxBulk ≤ Limits.standard.maxBulk) (hbs : bs.Addressable)
    (a : Arena) :
    (∀ r a', Batch.read limits a bs = (.ok (some r), a') →
        let requests := r.batch.toList
        let slots := max 16 (PowerOfTwo.ceil requests.length)
        let args := (requests.map fun q => q.toList.length).sum
        a'.used = a.used + (24 * (2 * slots - 16) + 16 * args)) ∧
      (∀ result a', Batch.read limits a bs = (result, a') →
        (result = .ok none ∨ ∃ error, result = .error (.frame error)) →
          a'.used = a.used + 384) ∧
      ∀ fs rest, Divides limits bs fs rest →
        (∀ a, (request limits a rest).2 = a) ∧
          (Batch.read limits a bs).2 = (Batch.read limits a (framesBytes fs)).2 := by
  refine ⟨?_, ?_, ?_⟩
  · intro r a' hread
    obtain ⟨fs, hpaid⟩ := paid_of_read_some hl hbs hread
    dsimp only
    rw [hpaid.spends.used, hpaid.cost_eq]
  · intro result a' hread hresult
    exact (spends_of_read_none hl hbs hread hresult).used
  · intro fs rest hdiv
    obtain ⟨hfs, rfl, hnone⟩ := hdiv
    exact ⟨request_of_no_frame_snd hbs.right hnone, read_append_snd hfs hbs hnone a⟩

/-- A ping, and an array that announces a million arguments, of which one is there. -/
theorem read_spends_ping :
    let a : Arena := ⟨1024, 0, true, by decide, by decide⟩
    let bs := Bytes.ascii "PING\r\n*1048576\r\n$3\r\nSET\r\n"
    bs.Addressable ∧ Divides Limits.standard bs [.ping pingWord] (bs.drop 6) ∧
      (request Limits.standard a (bs.drop 6)).2 = a ∧
      ∃ r a', Batch.read Limits.standard a bs = (.ok (some r), a') ∧ a'.used = 400 := by
  intro a bs
  have hbs : bs.Addressable := by decide
  have hrest : request Limits.standard a (bs.drop 6) = (.incomplete, a) := rfl
  have hdiv : Divides Limits.standard bs [.ping pingWord] (bs.drop 6) := by
    refine ⟨by decide, by decide, ?_⟩
    intro f hf hbegins
    obtain ⟨rest, hbytes⟩ := hbegins
    have haddr : Bytes.Addressable (f.bytes ++ rest) := by
      rw [hbytes]
      decide
    have hrequest := request_bytes hf haddr a
    rw [hbytes, hrest] at hrequest
    split at hrequest <;> cases hrequest
  have hroom : Affordable Limits.standard a bs := affordable_of_length_le rfl rfl (by decide)
  obtain ⟨b, a', htoList, hread⟩ :=
    hroom.read_of_divides (Nat.le_refl _) hbs hdiv (List.cons_ne_nil _ _)
  obtain ⟨hsome, -, hnone⟩ := read_spends (Nat.le_refl _) hbs a
  refine ⟨hbs, hdiv, (hnone _ _ hdiv).1 a, _, a', hread, ?_⟩
  rw [hsome _ a' hread, htoList]
  decide

/-! ### How many bytes an arena is sure to pay for -/

/-- **Up to 12,582,917 bytes a growable arena never gets in the way.** Let it be reset, whatever
capacity it has come to. Then no reading is refused for want of memory. The batch holds the requests
of all frames that the bytes divide into, and what ends it is never that the arena has no room. -/
theorem read_reset (hl : limits.maxBulk ≤ Limits.standard.maxBulk) (hgrow : a.growable = true)
    (hlen : bs.length ≤ 12582917) :
    (∀ error, (Batch.read limits a.reset bs).1 ≠ .error (.arena error)) ∧
      ∃ fs rest, Divides limits bs fs rest ∧
        (fs ≠ [] → ∃ b a',
          Batch.read limits a.reset bs = (.ok (some ⟨b, (framesBytes fs).length⟩), a') ∧
            b.toList = fs.map fun f => requestOf f.args) ∧
        (fs = [] → (Batch.read limits a.reset bs).1 = .ok none ∨
          ∃ error, (Batch.read limits a.reset bs).1 = .error (.frame error)) ∧
        ∀ a' error, (request limits a' rest).1 ≠ .failed (.arena error) := by
  have hbs : bs.Addressable := by
    unfold Bytes.Addressable
    omega
  have hroom : Affordable limits a.reset bs := affordable_of_length_le hgrow rfl hlen
  obtain ⟨fs, rest, hdiv⟩ := exists_divides limits bs
  have hsome (hne : fs ≠ []) : ∃ b a',
      Batch.read limits a.reset bs = (.ok (some ⟨b, (framesBytes fs).length⟩), a') ∧
        b.toList = fs.map fun f => requestOf f.args := by
    obtain ⟨b, a', htoList, hread⟩ := hroom.read_of_divides hl hbs hdiv hne
    exact ⟨b, a', hread, htoList⟩
  have hnone (hnil : fs = []) : (Batch.read limits a.reset bs).1 = .ok none ∨
      ∃ error, (Batch.read limits a.reset bs).1 = .error (.frame error) := by
    subst hnil
    have hstops := hdiv.stops
    rw [← List.nil_append rest, ← framesBytes_nil, ← hdiv.bytes] at hstops
    obtain ⟨result, hresult, hread⟩ := read_of_no_frame hl hbs hstops
    obtain ⟨a', hread⟩ := hread a.reset (hroom [] (by simp) List.nil_prefix)
    rw [hread]
    exact hresult
  refine ⟨?_, fs, rest, hdiv, hsome, hnone, ?_⟩
  · intro error herror
    by_cases hfs : fs = []
    · rcases hnone hfs with hread | ⟨_, hread⟩ <;> rw [herror] at hread <;> cases hread
    · obtain ⟨b, a', hread, -⟩ := hsome hfs
      rw [hread] at herror
      cases herror
  · intro a' error
    have hrest : rest.Addressable := by
      rw [hdiv.bytes] at hbs
      exact hbs.right
    rcases request_cases_of_no_frame hrest hdiv.stops with hrequest | ⟨_, hrequest⟩ <;>
      simp [hrequest a']

/-- Seventeen pings and a malformed byte, for an arena that begins with one kibibyte. -/
theorem read_reset_pings :
    let a : Arena := ⟨1024, 700, true, by decide, by decide⟩
    let pings := List.replicate 17 (Frame.ping pingWord)
    let bs := framesBytes pings ++ Bytes.ascii "?"
    a.growable = true ∧ bs.length ≤ 12582917 ∧
      ∃ b a', Batch.read Limits.standard a.reset bs = (.ok (some ⟨b, 102⟩), a') ∧
        b.toList = pings.map fun f => requestOf f.args := by
  intro a pings bs
  have hlen : bs.length ≤ 12582917 := by decide +kernel
  have hdiv : Divides Limits.standard bs pings (Bytes.ascii "?") := by
    refine ⟨by decide, rfl, ?_⟩
    intro f hf hbegins
    exact absurd ((Frame.six_le_length hf).trans hbegins.length_le) (by decide)
  obtain ⟨-, fs, rest, hdiv', hread, -, -⟩ :=
    read_reset (a := a) (Nat.le_refl Limits.standard.maxBulk) rfl hlen
  obtain ⟨rfl, -⟩ := hdiv.unique hdiv'
  exact ⟨rfl, hlen, hread (List.cons_ne_nil _ _)⟩

/-- A row of pings that fills all its slots, and one ping more. -/
theorem overgrown_pings {k : Nat} (hk : initialCapacity ≤ 2 ^ k)
    (hargs : a.used + (slotsCost (2 ^ k) + 16 * (2 ^ k + 1)) ≤ a.limit)
    (hfull : a.limit < a.used + (slotsCost (2 ^ k) + 16 * (2 ^ k + 1) + 24 * (2 * 2 ^ k))) :
    Overgrown limits a (framesBytes (List.replicate (2 ^ k + 1) (.ping pingWord))) := by
  have hping : (Frame.ping pingWord).WellFormed limits := Bytes.sameWord_self pingWord
  have hcapacity : capacityFor (2 ^ k) = 2 ^ k :=
    Nat.le_antisymm (capacityFor_le_two_pow le_rfl hk) (le_capacityFor _)
  have hlength : (List.replicate (2 ^ k) (Frame.ping pingWord)).length = 2 ^ k :=
    List.length_replicate
  have hcost : cost (List.replicate (2 ^ k) (.ping pingWord)) + argsCost [.ping pingWord] =
      slotsCost (2 ^ k) + 16 * (2 ^ k + 1) := by
    rw [cost, hlength, hcapacity, Nat.add_assoc, ← argsCost_append, argsCost, argsCount_append,
      argsCount, List.map_replicate, List.sum_replicate]
    simp [Frame.args, Request.argument]
  rw [List.replicate_succ']
  refine ⟨List.replicate (2 ^ k) (.ping pingWord), .ping pingWord, ?_, List.prefix_rfl, ?_, ?_⟩
  · intro g hg
    rw [← List.replicate_succ'] at hg
    rw [List.eq_of_mem_replicate hg]
    exact hping
  · rw [hcost]
    exact hargs
  · rw [cost_append_of_eq (by rw [hlength, hcapacity]), hcost, hlength, hcapacity]
    exact hfull

/-- **One byte more can be too many**: `2 ^ 21` pings fill their slots and leave the arena no room
for twice as many, so another one loses them all. -/
theorem read_reset_loses_pings (hgrow : a.growable = true) :
    let pings := framesBytes (List.replicate (2 ^ 21 + 1) (Frame.ping pingWord))
    pings.length = 12582918 ∧
      ∃ error a', Batch.read limits a.reset pings = (.error (.arena error), a') := by
  intro pings
  have hlen : pings.length = 12582918 := by
    show (List.flatMap Frame.bytes _).length = _
    rw [List.length_flatMap, List.map_replicate, List.sum_replicate]
    rfl
  have hbs : pings.Addressable := by
    rw [Bytes.Addressable, hlen]
    decide
  have hlimit : a.reset.limit = 2 ^ 27 := by
    rw [Arena.limit_reset, Arena.limit, if_pos hgrow]
    rfl
  refine ⟨hlen, read_of_overgrown hbs (overgrown_pings (by decide) ?_ ?_)⟩
  · rw [hlimit, Arena.used_reset]
    decide
  · rw [hlimit, Arena.used_reset]
    decide

end RespStore.Batch
