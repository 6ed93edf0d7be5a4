import RespStore.Proofs.Wire.Division

/-!
# RespStore.Proofs.Wire.Resumption

Reading in two goes. A connection reads a batch from the bytes it has, keeps what the batch did not
take, and reads again once more bytes have come. `Batch.resume` puts the answers of the two
readings together. `read_append` says that the answer is the one that a single reading gives of all
the bytes: frames of the first part are frames of the whole, and the rest divides as it would by
itself (`Divides.append_left`).
-/

namespace RespStore

namespace Wire

/-- Frames before bytes that divide are the first frames of the division. -/
theorem Divides.append_left {limits : Limits} {bs rest : Bytes} {fs gs : List Frame}
    (h : Divides limits bs fs rest) (hgs : ∀ g ∈ gs, g.WellFormed limits) :
    Divides limits (framesBytes gs ++ bs) (gs ++ fs) rest where
  wellFormed := List.forall_mem_append.2 ⟨hgs, h.wellFormed⟩
  bytes := by rw [h.bytes, framesBytes_append, List.append_assoc]
  stops := h.stops

end Wire

namespace Batch

open Wire

variable {limits : Limits} {a a' : Arena} {bs rest : Bytes} {fs : List Frame}

/-! ### What a reading answers -/

/-- The requests that were read and the number of bytes that they took. -/
def taken : Option Read → List (List Bytes) × Nat
  | none => ([], 0)
  | some r => (r.batch.toList.map Slots.toList, r.consumed)

/-- What reading `bs` answers, the arena apart. -/
def outcome (limits : Limits) (a : Arena) (bs : Bytes) :
    Except ParseError (List (List Bytes) × Nat) :=
  (Batch.read limits a bs).1.map taken

/-- The answer of two readings, when the first took `first` and the second, of what was kept and
what came after it, answered `next`. An error ends the requests, and it is the answer where there
are none. -/
def resume (first : List (List Bytes) × Nat) :
    Except ParseError (List (List Bytes) × Nat) → Except ParseError (List (List Bytes) × Nat)
  | .ok (requests, used) => .ok (first.1 ++ requests, first.2 + used)
  | .error error => if first.1.isEmpty then .error error else .ok first

/-- Whatever a reading takes, it takes frames from the start of the bytes. -/
theorem frames_of_read_ok (hl : limits.maxBulk ≤ Limits.standard.maxBulk) (hbs : bs.Addressable)
    {result : Option Read} (h : Batch.read limits a bs = (.ok result, a')) :
    ∃ fs rest, (∀ f ∈ fs, f.WellFormed limits) ∧ bs = framesBytes fs ++ rest ∧
      taken result = (fs.map Frame.args, (framesBytes fs).length) := by
  cases result with
  | none => exact ⟨[], bs, by simp, rfl, rfl⟩
  | some r =>
    obtain ⟨fs, -, hfs, ⟨rest, hrest⟩, htoList, hconsumed⟩ := frames_of_read_some hl hbs h
    refine ⟨fs, rest, hfs, hrest.symm, ?_⟩
    rw [taken, htoList, map_toList_requestOf, hconsumed]

/-- An arena that can pay for all requests gives the requests of the division. -/
theorem Affordable.outcome_of_divides (h : Affordable limits a bs)
    (hl : limits.maxBulk ≤ Limits.standard.maxBulk) (hbs : bs.Addressable)
    (hdiv : Divides limits bs fs rest) (hne : fs ≠ []) :
    outcome limits a bs = .ok (fs.map Frame.args, (framesBytes fs).length) := by
  obtain ⟨b, a', htoList, hread⟩ := h.read_of_divides hl hbs hdiv hne
  rw [outcome, hread, Except.map, taken, htoList, map_toList_requestOf]

/-- An arena that can pay for all requests can pay for the first slots. -/
theorem Affordable.room (h : Affordable limits a bs) : a.used + cost [] ≤ a.limit :=
  h [] (by simp) List.nil_prefix

/-- Where no frame comes first, the answer is that there is none or an error, the same from all
arenas. -/
theorem outcome_of_no_frame (hl : limits.maxBulk ≤ Limits.standard.maxBulk) (hbs : bs.Addressable)
    (hnone : ∀ f : Frame, f.WellFormed limits → ¬f.bytes <+: bs) :
    ∃ answer : Except ParseError (List (List Bytes) × Nat),
      (answer = .ok ([], 0) ∨ ∃ error, answer = .error error) ∧
        ∀ a : Arena, a.used + cost [] ≤ a.limit → outcome limits a bs = answer := by
  obtain ⟨result, hresult, hread⟩ := read_of_no_frame hl hbs hnone
  refine ⟨result.map taken, ?_, ?_⟩
  · rcases hresult with rfl | ⟨error, rfl⟩
    · exact .inl rfl
    · exact .inr ⟨_, rfl⟩
  · intro a hroom
    obtain ⟨a', hread⟩ := hread a hroom
    rw [outcome, hread]

/-! ### Two readings -/

/-- **Reading what was kept together with what came after it is reading on.** Let a reading of
`bs` succeed, from whatever arena, and let it take `taken result`; this may be nothing, and what it
leaves may be malformed. When the rest is read again with `more` behind it, the two answers together
are the answer to `bs ++ more`: the requests of both and the bytes of both, or those of the first
reading alone if the second refuses its bytes. If nothing was taken before, the error is the same.

The second reading may find requests, or a beginning of one, where the first left bytes that it
would have refused. -/
theorem read_append (hl : limits.maxBulk ≤ Limits.standard.maxBulk) {more : Bytes}
    (hbs : Bytes.Addressable (bs ++ more)) {result : Option Read}
    (hfirst : Batch.read limits a bs = (.ok result, a')) {a₁ a₂ : Arena}
    (hnext : Affordable limits a₁ (bs.drop (taken result).2 ++ more))
    (hwhole : Affordable limits a₂ (bs ++ more)) :
    outcome limits a₂ (bs ++ more) =
      resume (taken result) (outcome limits a₁ (bs.drop (taken result).2 ++ more)) := by
  obtain ⟨gs, kept, hgs, rfl, htaken⟩ := frames_of_read_ok hl hbs.left hfirst
  rw [htaken] at hnext ⊢
  rw [List.drop_left] at hnext ⊢
  rw [List.append_assoc] at hbs hwhole ⊢
  obtain ⟨fs, rest, hdiv⟩ := exists_divides limits (kept ++ more)
  have hall := hdiv.append_left hgs
  by_cases hfs : fs = []
  · -- nothing more is taken, and the whole is refused only where nothing was taken before
    subst hfs
    have hnone : ∀ f : Frame, f.WellFormed limits → ¬f.bytes <+: kept ++ more := by
      rw [hdiv.bytes]
      exact hdiv.stops
    obtain ⟨answer, hanswer, hread⟩ := outcome_of_no_frame hl hbs.right hnone
    rw [hread a₁ hnext.room]
    by_cases hgs : gs = []
    · subst hgs
      have hagain : outcome limits a₂ (framesBytes [] ++ (kept ++ more)) = answer :=
        hread a₂ hwhole.room
      rw [hagain]
      rcases hanswer with rfl | ⟨error, rfl⟩ <;> rfl
    · rw [List.append_nil] at hall
      rw [hwhole.outcome_of_divides hl hbs hall hgs]
      rcases hanswer with rfl | ⟨error, rfl⟩
      · rw [resume, List.append_nil, Nat.add_zero]
      · rw [resume, if_neg (by simpa using hgs)]
  · -- both readings follow one division, so what is malformed behind it stays out of both answers
    have hne : gs ++ fs ≠ [] := List.append_ne_nil_of_right_ne_nil gs hfs
    rw [hwhole.outcome_of_divides hl hbs hall hne,
      hnext.outcome_of_divides hl hbs.right hdiv hfs, resume, List.map_append,
      framesBytes_append, List.length_append]

/-- The bytes kept after a ping turn out to be malformed when the next byte comes. The two readings
together answer with the ping, and so does one reading of all the bytes. -/
theorem read_ping_append :
    let a : Arena := ⟨1024, 0, true, by decide, by decide⟩
    let bs := Bytes.ascii "PING\r\n*1\r\n"
    let more := Bytes.ascii ":"
    ∃ result a', Batch.read Limits.standard a bs = (.ok result, a') ∧
      taken result = ([[Bytes.ascii "PING"]], 6) ∧
      Affordable Limits.standard a (bs.drop (taken result).2 ++ more) ∧
      Affordable Limits.standard a (bs ++ more) ∧
      outcome Limits.standard a (bs.drop (taken result).2 ++ more) =
        .error (.frame (.notBulk 58)) ∧
      outcome Limits.standard a (bs ++ more) = .ok ([[Bytes.ascii "PING"]], 6) := by
  intro a bs more
  have hpays {bs : Bytes} (hlen : bs.length ≤ 4 * 1024 * 1024) :
      Affordable Limits.standard a bs := affordable_of_growable rfl rfl hlen
  have hdiv : Divides Limits.standard bs [.ping pingWord] (Bytes.ascii "*1\r\n") := by
    refine ⟨by decide, by decide, ?_⟩
    intro f hf hbegins
    exact absurd ((Frame.six_le_length hf).trans hbegins.length_le) (by decide)
  obtain ⟨b, a', htoList, hread⟩ :=
    (hpays (by decide)).read_of_divides (Nat.le_refl _) (by decide) hdiv (List.cons_ne_nil _ _)
  have htaken : taken (some ⟨b, (framesBytes [Frame.ping pingWord]).length⟩) =
      ([[Bytes.ascii "PING"]], 6) := by
    rw [taken, htoList, map_toList_requestOf]
    rfl
  have hnext : Affordable Limits.standard a (bs.drop 6 ++ more) := hpays (by decide)
  have hwhole : Affordable Limits.standard a (bs ++ more) := hpays (by decide)
  have hmalformed : outcome Limits.standard a (bs.drop 6 ++ more) =
      .error (.frame (.notBulk 58)) := by
    have hrequest (a : Arena) : request Limits.standard a (bs.drop 6 ++ more) =
        (.failed (.frame (.notBulk 58)), a) := rfl
    obtain ⟨a₁, hread⟩ := read_of_failed hnext.room hrequest
    rw [outcome, hread]
    rfl
  have hboth := read_append (Nat.le_refl _) (by decide) hread (by rw [htaken]; exact hnext) hwhole
  rw [htaken, hmalformed] at hboth
  refine ⟨_, a', hread, htaken, ?_, hwhole, ?_, hboth⟩
  · rw [htaken]
    exact hnext
  · rw [htaken]
    exact hmalformed

end Batch
end RespStore
