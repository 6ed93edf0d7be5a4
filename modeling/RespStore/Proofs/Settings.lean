import RespStore.Proofs.Session.Stages

/-!
# RespStore.Proofs.Settings

Settings that pass `validate` are those with which sessions work. The bounds are checked where a
server is started, and the memory is taken where a session begins; in between, sizes are doubled and
rounded up. `validated_session_works` says that the bounds are right at both ends: with no settings
that pass is a session short of memory, or without room in an empty buffer, and beyond the greatest
size no session begins.
-/

namespace RespStore

/-- The sizes that settings may have which pass. -/
theorem Settings.sizes_of_validate {settings : Settings} (h : settings.validate = .ok ()) :
    (minBuffer ≤ settings.sizes.buffer ∧ settings.sizes.buffer ≤ maxBuffer) ∧
      Arena.isValidCapacity settings.sizes.arena = true := by
  unfold validate at h
  split_ifs at h with _ _ _ hbuffer harena
  all_goals cases h
  exact ⟨by omega, by simpa using harena⟩

/-! ### The course of a session -/

/-- Where the stage is an end, it is not for want of memory. -/
def Stage.Supplied : Stage → Prop
  | .ended cause _ => ∀ error, cause ≠ .memory error
  | _ => True

namespace Stage.Supplied

open Session

variable {s : Session} {stage : Stage}

theorem finish (s : Session) : (Stage.ended s.finish.1 s.finish.2).Supplied := by
  intro error
  unfold Session.finish
  dsimp only
  split <;> rintro ⟨⟩

/-- **No step runs out of memory.** -/
theorem next (h : stage.Supplied) : stage.next.Supplied := by
  cases stage with
  | ended cause s => exact h
  | answering s arrivals =>
    rw [Stage.next.eq_def]
    dsimp only
    split
    · trivial
    · split
      · next cause s' hlook =>
        rintro error rfl
        rcases look_error hlook with hcause | ⟨_, hcause⟩
        · exact hcause
        · cases hcause
      · trivial
      · trivial
  | reading s arrivals =>
    rw [Stage.next.eq_def]
    dsimp only
    split
    · rintro _ ⟨⟩
    · cases arrivals with
      | nil => exact finish s
      | cons e rest =>
        cases e with
        | pending => trivial
        | fail error => rintro _ ⟨⟩
        | shutdown => rintro _ ⟨⟩
        | data bytes =>
          dsimp only
          split
          · exact finish s
          · trivial

theorem iterate (h : stage.Supplied) (n : Nat) : (Stage.next^[n] stage).Supplied := by
  induction n with
  | zero => exact h
  | succ n ih =>
    rw [Function.iterate_succ_apply']
    exact ih.next

end Stage.Supplied

namespace Settings

open Session

/-- How a session ends that started: it is not short of memory, and where its buffer has no room,
the buffer is full. -/
theorem serve_of_start {sizes : Sizes} {script : Script} {store : Store} {traffic : Traffic}
    (hfresh : script.outlet.unflushed = []) {s₀ : Session}
    (hstart : start sizes script.outlet store traffic.opened = .ok s₀) :
    (∀ error, (s₀.serve script.arrivals).1 ≠ .memory error) ∧
      ∀ size, (s₀.serve script.arrivals).1 = .oversized size →
        size = sizes.buffer ∧ (s₀.serve script.arrivals).2.buffered.length = size := by
  have hsound := sound_of_start hfresh hstart
  obtain ⟨hsize, a, -, rfl⟩ := fresh_of_start hstart
  obtain ⟨n, hended⟩ := hsound.exists_ended hsize
  rw [Stage.outcome_reading] at hended
  refine ⟨?_, ?_⟩
  · have hfirst : (Stage.reading (fresh sizes script store traffic a) script.arrivals).Supplied :=
      trivial
    have hlast := hfirst.iterate n
    rw [hended] at hlast
    exact hlast
  · intro size hcause
    have hlast := hsound.iterate hsize n
    rw [hended] at hlast
    obtain ⟨hsame, hfull, -⟩ := hlast size hcause
    exact ⟨hsame, hfull⟩

/-- A session that does not begin reads nothing. -/
theorem run_unstarted {sizes : Sizes} {script : Script} (store : Store) (traffic : Traffic)
    {error : ArenaError}
    (hstart : start sizes script.outlet store traffic.opened = .error error) :
    run sizes script store traffic =
      ⟨if script.shutDown then .shutdown else .memory error, [], script.outlet.unflushed, store,
        traffic.opened.closed⟩ := by
  unfold run
  dsimp only
  split
  · rfl
  · rw [hstart]

/-- How a run ends whose session starts, if it is not told to stop before. -/
theorem cause_run_of_start {sizes : Sizes} {script : Script} {store : Store} {traffic : Traffic}
    {s₀ : Session} (hstart : start sizes script.outlet store traffic.opened = .ok s₀) :
    (run sizes script store traffic).cause =
      if script.shutDown then .shutdown else (s₀.serve script.arrivals).1 := by
  unfold run
  dsimp only
  split
  · rfl
  · rw [hstart]
    rfl

/-- **Settings that pass always give sessions that work**, whatever the client does, on a stream
that has taken nothing before. The capacity for the two buffers is rounded up without leaving a
word, an arena may be created with it, and each buffer takes just its size from there. The arena for
requests may be created as well. So the session begins; it never ends for want of memory, and where
it reports a buffer without room, the buffer is full and not empty.

With a buffer that is greater than the settings allow, up to `2 ^ 62`, no session begins. Nothing is
read, and nothing changes but the count of sessions. -/
theorem validated_session_works {script : Script} (hfresh : script.outlet.unflushed = [])
    (store : Store) (traffic : Traffic) :
    (∀ settings : Settings, settings.validate = .ok () →
      let sizes := settings.sizes
      let t := run sizes script store traffic
      PowerOfTwo.ceil (2 * sizes.buffer) < Word.size ∧
      buffersCapacity sizes.buffer =
        max Arena.minCapacity (PowerOfTwo.ceil (2 * sizes.buffer)) ∧
      (∃ a received sent, Taken sizes.buffer a received sent) ∧
      (∃ a, Arena.create true sizes.arena = .ok a) ∧
      (∀ error, t.cause ≠ .memory error) ∧
      ∃ s₀, start sizes script.outlet store traffic.opened = .ok s₀ ∧
        s₀.bufferSize = sizes.buffer ∧ s₀.buffered = [] ∧
        ∀ size, t.cause = .oversized size → size = sizes.buffer ∧
          (s₀.serve script.arrivals).2.buffered.length = size ∧ 0 < size) ∧
    ∀ sizes : Sizes, maxBuffer < sizes.buffer → sizes.buffer ≤ 2 ^ 62 →
      let t := run sizes script store traffic
      let error := ArenaError.invalidCapacity (PowerOfTwo.ceil (2 * sizes.buffer))
      takeBuffers sizes.buffer = .error error ∧
      start sizes script.outlet store traffic.opened = .error error ∧
      t.cause = (if script.shutDown then .shutdown else .memory error) ∧
      t.events = [] ∧ t.store = store ∧ t.traffic = traffic.opened.closed := by
  refine ⟨?_, ?_⟩
  · intro settings hvalid sizes t
    obtain ⟨⟨hmin, hmax⟩, harena⟩ := sizes_of_validate hvalid
    have hpos : 0 < sizes.buffer := Nat.lt_of_lt_of_le (by decide) hmin
    obtain ⟨hceil, hcapacity⟩ :=
      buffersCapacity_of_le (show sizes.buffer ≤ 2 ^ 62 from hmax.trans (by decide))
    have hstart := start_eq hmax harena script.outlet store traffic.opened
    obtain ⟨hmemory, hoversized⟩ := serve_of_start hfresh hstart
    have hcause : t.cause = _ := cause_run_of_start hstart
    refine ⟨hceil, hcapacity, exists_taken hmax, ⟨_, dif_pos harena⟩, ?_, _, hstart, rfl, rfl, ?_⟩
    · intro error
      rw [hcause]
      split
      · rintro ⟨⟩
      · exact hmemory error
    · intro size hfull
      rw [hcause] at hfull
      split at hfull
      · cases hfull
      · obtain ⟨rfl, hlength⟩ := hoversized size hfull
        exact ⟨rfl, hlength, hpos⟩
  · intro sizes hlt hle t error
    have hbuffers : takeBuffers sizes.buffer = .error error := by
      rw [takeBuffers, create_buffers_of_lt hlt hle]
    have hstart := start_of_lt hlt hle script.outlet store traffic.opened
    have ht : t = _ := run_unstarted store traffic hstart
    rw [ht]
    exact ⟨hbuffers, hstart, rfl, rfl, rfl, rfl⟩

/-- Two buffers whose size is no power of two, and a buffer that is one byte too large. -/
theorem validated_session_works_at_bounds :
    let settings := { Settings.standard with sizes := ⟨1000, 2048⟩ }
    let script : Script := ⟨[.data (Bytes.ascii "PING\r\n")], Outlet.steady, false⟩
    let large : Sizes := ⟨maxBuffer + 1, 2048⟩
    let t := run settings.sizes script (Store.create 4) Traffic.none
    let t' := run large script (Store.create 4) Traffic.none
    script.outlet.unflushed = [] ∧ settings.validate = .ok () ∧
      (∃ a received sent, Taken 1000 a received sent) ∧ buffersCapacity 1000 = 2048 ∧
      t.cause = .left ∧ (∀ error, t.cause ≠ .memory error) ∧
      t'.cause = .memory (.invalidCapacity (2 ^ 28)) ∧ t'.events = [] := by
  intro settings script large t t'
  have hvalid : settings.validate = .ok () := by decide +kernel
  have hceil : PowerOfTwo.ceil (2 * large.buffer) = 2 ^ 28 := by decide +kernel
  have hfresh : script.outlet.unflushed = [] := rfl
  obtain ⟨hworks, hfails⟩ := validated_session_works hfresh (Store.create 4) Traffic.none
  obtain ⟨-, hcapacity, htaken, -, hmemory, -⟩ := hworks settings hvalid
  obtain ⟨-, -, hcause, hevents, -⟩ := hfails large (by decide) (by decide)
  rw [hceil] at hcause
  exact ⟨hfresh, hvalid, htaken, hcapacity.trans (by decide +kernel), by decide +kernel, hmemory,
    hcause, hevents⟩

end Settings
end RespStore
