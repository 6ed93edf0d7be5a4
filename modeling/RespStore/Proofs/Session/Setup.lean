import RespStore.Proofs.Arena
import RespStore.Proofs.PowerOfTwo
import RespStore.Settings

/-!
# RespStore.Proofs.Session.Setup

The memory that a session begins with. Its two buffers are taken from one arena, whose capacity is
rounded up to a power of two, so the greatest size of a buffer is half of the greatest capacity, and
no size is too small. Requests are paid for by an arena of their own.

`takeBuffers_eq_ok_iff` says for which sizes there is memory, and `start_eq` what a session that
gets it begins with.
-/

namespace RespStore.Session

variable {size : Nat}

/-! ### Room for two buffers -/

/-- Twice a size of up to `2 ^ 62` is rounded up within a word. -/
theorem buffersCapacity_of_le (h : size ≤ 2 ^ 62) :
    PowerOfTwo.ceil (2 * size) < Word.size ∧
      buffersCapacity size = max Arena.minCapacity (PowerOfTwo.ceil (2 * size)) := by
  have hceil : PowerOfTwo.ceil (2 * size) ≤ 2 ^ 63 := PowerOfTwo.ceil_le_two_pow (by omega)
  have hlt : PowerOfTwo.ceil (2 * size) < Word.size := Nat.lt_of_le_of_lt hceil (by decide)
  have hboth : min (2 * size) (Word.size - 1) = 2 * size := Nat.min_eq_left (by
    have : 2 ^ 63 ≤ Word.size - 1 := by decide
    omega)
  exact ⟨hlt, by rw [buffersCapacity, hboth, Word.wrap_of_lt hlt]⟩

/-- An arena with room for two buffers may be created up to the greatest size. -/
theorem isValidCapacity_buffersCapacity (h : size ≤ Settings.maxBuffer) :
    2 * size ≤ buffersCapacity size ∧ Arena.isValidCapacity (buffersCapacity size) = true := by
  have hmax : Settings.maxBuffer = 2 ^ 26 := by decide
  obtain ⟨-, hcapacity⟩ := buffersCapacity_of_le (show size ≤ 2 ^ 62 by omega)
  have hceil : PowerOfTwo.ceil (2 * size) ≤ Arena.maxCapacity :=
    PowerOfTwo.ceil_le_two_pow (show 2 * size ≤ 2 ^ 27 by omega)
  rw [hcapacity, Arena.isValidCapacity_iff]
  refine ⟨Nat.le_trans (PowerOfTwo.le_ceil _) (Nat.le_max_right ..), Nat.le_max_left ..,
    Nat.max_le.2 ⟨by decide, hceil⟩, ?_⟩
  rcases Nat.le_total Arena.minCapacity (PowerOfTwo.ceil (2 * size)) with hle | hle
  · rw [Nat.max_eq_right hle]
    exact PowerOfTwo.test_ceil (2 * size)
  · rw [Nat.max_eq_left hle]
    decide

/-- Beyond the greatest size, no arena has room for two buffers. -/
theorem create_buffers_of_lt (hlt : Settings.maxBuffer < size) (hle : size ≤ 2 ^ 62) :
    Arena.create false (buffersCapacity size) =
      .error (.invalidCapacity (PowerOfTwo.ceil (2 * size))) := by
  have hmax : Settings.maxBuffer = 2 ^ 26 := by decide
  have hmin : Arena.minCapacity ≤ Arena.maxCapacity := by decide
  have hlarge : Arena.maxCapacity < PowerOfTwo.ceil (2 * size) :=
    Nat.lt_of_lt_of_le (show 2 ^ 27 < 2 * size by omega) (PowerOfTwo.le_ceil _)
  have hcapacity : buffersCapacity size = PowerOfTwo.ceil (2 * size) := by
    rw [(buffersCapacity_of_le hle).2, Nat.max_eq_right (by omega)]
  have hinvalid : ¬Arena.isValidCapacity (PowerOfTwo.ceil (2 * size)) = true := by
    rw [Arena.isValidCapacity_iff]
    omega
  rw [hcapacity, Arena.create, dif_neg hinvalid]

/-- The receive buffer is taken from an arena of its own, and then the send buffer. Each takes just
its size. -/
structure Taken (size : Nat) (a received sent : Arena) : Prop where
  create_eq : Arena.create false (buffersCapacity size) = .ok a
  receive_eq : a.allocate .byte size = (.ok (), received)
  used_received : received.used = size
  send_eq : received.allocate .byte size = (.ok (), sent)
  used_sent : sent.used = 2 * size

/-- **There is memory for buffers of up to the greatest size.** -/
theorem exists_taken (h : size ≤ Settings.maxBuffer) :
    ∃ a received sent, Taken size a received sent := by
  obtain ⟨hroom, hvalid⟩ := isValidCapacity_buffersCapacity h
  have hsmall : Layout.byte.align ≤ 8 := by decide
  have hsizeOf : Layout.byte.size * size = size := Nat.one_mul size
  have hcreate : Arena.create false (buffersCapacity size) =
      .ok ⟨buffersCapacity size, 0, false, hvalid, Nat.zero_le _⟩ := dif_pos hvalid
  generalize hnew : (⟨buffersCapacity size, 0, false, hvalid, Nat.zero_le _⟩ : Arena) = a at hcreate
  have hlimit : a.limit = buffersCapacity size := hnew ▸ rfl
  have hused : a.used = 0 := hnew ▸ rfl
  rcases a.allocate_cases hsmall size with ⟨-, received, hreceive, hspends⟩ | ⟨hfull, -⟩
  · have hreceived := hspends.used
    rw [hused, hsizeOf, Nat.zero_add] at hreceived
    rcases received.allocate_cases hsmall size with ⟨-, sent, hsend, hspends'⟩ | ⟨hfull, -⟩
    · have hsent := hspends'.used
      exact ⟨a, received, sent, hcreate, hreceive, hreceived, hsend, by omega⟩
    · rw [hspends.limit] at hfull
      omega
  · omega

/-- **Half of the greatest capacity is the greatest size of a buffer**, and no size is too small. -/
theorem takeBuffers_eq_ok_iff : takeBuffers size = .ok () ↔ size ≤ Settings.maxBuffer := by
  constructor
  · intro h
    unfold takeBuffers at h
    split at h
    · cases h
    · next a _ =>
      split at h
      · cases h
      · next received hreceive =>
        have hsmall : Layout.byte.align ≤ 8 := by decide
        have hsizeOf : Layout.byte.size * size = size := Nat.one_mul size
        have hspends := (Arena.spends_of_allocate hsmall hreceive).2
        have hsend : received.allocate .byte size = (.ok (), (received.allocate .byte size).2) :=
          Prod.ext h rfl
        have hroom := (Arena.spends_of_allocate hsmall hsend).1
        have := a.limit_le
        rw [hspends.used, hspends.limit] at hroom
        unfold Settings.maxBuffer
        omega
  · intro h
    obtain ⟨a, received, sent, htaken⟩ := exists_taken h
    rw [takeBuffers, htaken.create_eq]
    dsimp only
    rw [htaken.receive_eq]
    dsimp only
    rw [htaken.send_eq]

/-! ### The beginning of a session -/

/-- A session that gets its memory begins with nothing received. -/
theorem start_eq {sizes : Sizes} (hsize : sizes.buffer ≤ Settings.maxBuffer)
    (harena : Arena.isValidCapacity sizes.arena = true) (outlet : Outlet) (store : Store)
    (traffic : Traffic) :
    start sizes outlet store traffic =
      .ok ⟨sizes.buffer, ⟨sizes.arena, 0, true, harena, Nat.zero_le _⟩, [], outlet, store, traffic,
        #[]⟩ := by
  rw [start, takeBuffers_eq_ok_iff.2 hsize, Arena.create, dif_pos harena]
  rfl

/-- A session without room for its buffers does not begin, whatever its other arena. -/
theorem start_of_lt {sizes : Sizes} (hlt : Settings.maxBuffer < sizes.buffer)
    (hle : sizes.buffer ≤ 2 ^ 62) (outlet : Outlet) (store : Store) (traffic : Traffic) :
    start sizes outlet store traffic =
      .error (.invalidCapacity (PowerOfTwo.ceil (2 * sizes.buffer))) := by
  rw [start, takeBuffers, create_buffers_of_lt hlt hle]
  rfl

end RespStore.Session
