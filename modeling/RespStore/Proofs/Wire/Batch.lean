import Mathlib.Algebra.BigOperators.Group.List.Basic
import RespStore.Proofs.Arena
import RespStore.Proofs.PowerOfTwo
import RespStore.Proofs.Wire.Crossing

/-!
# RespStore.Proofs.Wire.Batch

What reading a batch makes of a row of frames. `Batch.cost` is the memory that the requests of some
frames take: the slots of the batch, which doubles from sixteen and gives nothing back, and a slot
for every argument. `Batch.Paid` ties a batch and its arena to the frames taken in so far.

One frame more is decided by the cost alone (`Paid.step`): it is taken in, or its arguments find no
room, or the batch finds none to move to. A row of frames that can be paid for is taken in as a
whole (`Paid.readFrom_frames`).
-/

namespace RespStore

namespace Wire

/-- Requests one after another on the wire. -/
def framesBytes (fs : List Frame) : Bytes := fs.flatMap Frame.bytes

@[simp] theorem framesBytes_nil : framesBytes [] = [] := rfl

@[simp] theorem framesBytes_cons (f : Frame) (fs : List Frame) :
    framesBytes (f :: fs) = f.bytes ++ framesBytes fs := List.flatMap_cons

@[simp] theorem framesBytes_append (fs gs : List Frame) :
    framesBytes (fs ++ gs) = framesBytes fs ++ framesBytes gs := List.flatMap_append

theorem framesBytes_ne_nil {fs : List Frame} (h : fs ≠ []) : framesBytes fs ≠ [] := by
  cases fs with
  | nil => exact absurd rfl h
  | cons f fs => exact List.append_ne_nil_of_left_ne_nil f.bytes_ne_nil _

/-- The number of arguments in some requests. -/
def argsCount (fs : List Frame) : Nat := (fs.map fun f => f.args.length).sum

@[simp] theorem argsCount_nil : argsCount [] = 0 := rfl

@[simp] theorem argsCount_cons (f : Frame) (fs : List Frame) :
    argsCount (f :: fs) = f.args.length + argsCount fs := rfl

@[simp] theorem argsCount_append (fs gs : List Frame) :
    argsCount (fs ++ gs) = argsCount fs + argsCount gs := by
  simp [argsCount]

/-- Every request has an argument. -/
theorem length_le_argsCount {limits : Limits} {fs : List Frame}
    (h : ∀ f ∈ fs, f.WellFormed limits) : fs.length ≤ argsCount fs := by
  induction fs with
  | nil => exact Nat.le_refl _
  | cons f fs ih =>
    obtain ⟨hf, hfs⟩ := List.forall_mem_cons.1 h
    have := List.length_pos_iff.2 (Frame.args_ne_nil hf)
    have := ih hfs
    rw [List.length_cons, argsCount_cons]
    omega

/-- Every argument of some requests takes at least six bytes. -/
theorem six_mul_argsCount_le {limits : Limits} {fs : List Frame}
    (h : ∀ f ∈ fs, f.WellFormed limits) : 6 * argsCount fs ≤ (framesBytes fs).length := by
  induction fs with
  | nil => exact Nat.le_refl _
  | cons f fs ih =>
    obtain ⟨hf, hfs⟩ := List.forall_mem_cons.1 h
    have := Frame.six_mul_length_args_le hf
    have := ih hfs
    rw [argsCount_cons, framesBytes_cons, List.length_append]
    omega

end Wire

namespace Batch

open Wire

/-! ### Slots -/

/-- The slots of a batch with `count` requests. -/
def capacityFor (count : Nat) : Nat := max initialCapacity (PowerOfTwo.ceil count)

theorem le_capacityFor (count : Nat) : count ≤ capacityFor count :=
  Nat.le_trans (PowerOfTwo.le_ceil count) (Nat.le_max_right ..)

theorem capacityFor_mono {m n : Nat} (h : m ≤ n) : capacityFor m ≤ capacityFor n :=
  max_le_max le_rfl (PowerOfTwo.ceil_mono h)

theorem capacityFor_eq_two_pow (count : Nat) : ∃ k, capacityFor count = 2 ^ k := by
  obtain ⟨k, hk⟩ := PowerOfTwo.ceil_eq_two_pow count
  rcases le_total initialCapacity (2 ^ k) with h | h
  · exact ⟨k, by rw [capacityFor, hk, max_eq_right h]⟩
  · exact ⟨4, by rw [capacityFor, hk, max_eq_left h]; rfl⟩

theorem capacityFor_le_two_pow {count k : Nat} (hcount : count ≤ 2 ^ k)
    (hk : initialCapacity ≤ 2 ^ k) : capacityFor count ≤ 2 ^ k :=
  max_le hk (PowerOfTwo.ceil_le_two_pow hcount)

/-- A batch with a slot to spare keeps its slots. -/
theorem capacityFor_succ_of_lt {count : Nat} (h : count < capacityFor count) :
    capacityFor (count + 1) = capacityFor count := by
  obtain ⟨k, hk⟩ := capacityFor_eq_two_pow count
  refine Nat.le_antisymm ?_ (capacityFor_mono (Nat.le_succ _))
  rw [hk] at h ⊢
  exact capacityFor_le_two_pow h (hk ▸ Nat.le_max_left ..)

/-- A full batch comes to twice as many. -/
theorem capacityFor_succ_of_eq {count : Nat} (h : count = capacityFor count) :
    capacityFor (count + 1) = 2 * capacityFor count := by
  obtain ⟨k, hk⟩ := capacityFor_eq_two_pow count
  have hcount : count = 2 ^ k := h.trans hk
  have hmin : initialCapacity ≤ 2 ^ k := hk ▸ Nat.le_max_left ..
  have hmore : 2 ^ k ≤ 2 ^ (k + 1) := Nat.pow_le_pow_right (by decide) (Nat.le_succ k)
  rw [hk, hcount, capacityFor, PowerOfTwo.ceil_two_pow_add_one, max_eq_right (hmin.trans hmore),
    Nat.pow_succ, Nat.mul_comm]

/-! ### Cost -/

variable {limits : Limits} {start a : Arena} {fs : List Frame} {b : Batch}

/-- What the slots of a batch have taken from the arena when there are `capacity` of them, those
included that the batch has left behind. -/
def slotsCost (capacity : Nat) : Nat := entry.size * (2 * capacity - initialCapacity)

/-- What the arguments of some requests take from the arena. -/
def argsCost (fs : List Frame) : Nat := Request.argument.size * argsCount fs

/-- What the requests of some frames take from the arena. -/
def cost (fs : List Frame) : Nat := slotsCost (capacityFor fs.length) + argsCost fs

theorem cost_mono {fs gs : List Frame} : cost fs ≤ cost (fs ++ gs) := by
  have hcap := capacityFor_mono (Nat.le_add_right fs.length gs.length)
  rw [← List.length_append] at hcap
  simp only [cost, slotsCost, argsCost, argsCount_append, entry, Request.argument]
  omega

/-- The arguments of one more request are paid for before its slot. -/
theorem cost_add_argsCost_le (fs : List Frame) (f : Frame) :
    cost fs + argsCost [f] ≤ cost (fs ++ [f]) := by
  have hcap := capacityFor_mono (Nat.le_add_right fs.length 1)
  simp only [cost, slotsCost, argsCost, argsCount_append, List.length_append,
    List.length_singleton, entry, Request.argument]
  omega

theorem argsCost_append (fs gs : List Frame) : argsCost (fs ++ gs) = argsCost fs + argsCost gs := by
  rw [argsCost, argsCount_append, Nat.mul_add]
  rfl

/-- While there is a slot to spare, a request costs its arguments. -/
theorem cost_append_of_lt (h : fs.length < capacityFor fs.length) (f : Frame) :
    cost (fs ++ [f]) = cost fs + argsCost [f] := by
  rw [cost, List.length_append, List.length_singleton, capacityFor_succ_of_lt h, argsCost_append,
    cost, Nat.add_assoc]

/-- When there is none, it costs the slots of a batch of twice the size as well. -/
theorem cost_append_of_eq (h : fs.length = capacityFor fs.length) (f : Frame) :
    cost (fs ++ [f]) =
      cost fs + argsCost [f] + entry.size * (2 * capacityFor fs.length) := by
  have hmin : initialCapacity ≤ capacityFor fs.length := Nat.le_max_left ..
  rw [cost, List.length_append, List.length_singleton, capacityFor_succ_of_eq h, argsCost_append,
    cost, slotsCost, slotsCost, entry]
  dsimp only
  omega

/-- Requests of so many bytes never cost more than an arena can grow to. They are `2 ^ 21` at most,
with as many arguments in all, since an argument takes six bytes. -/
theorem cost_le_maxCapacity (h : ∀ f ∈ fs, f.WellFormed limits)
    (hlen : (framesBytes fs).length ≤ 12582917) : cost fs ≤ Arena.maxCapacity := by
  have hcount := length_le_argsCount h
  have hbytes := six_mul_argsCount_le h
  have hcap : capacityFor fs.length ≤ 2 ^ 21 := by
    refine capacityFor_le_two_pow ?_ (by decide)
    omega
  simp only [cost, slotsCost, argsCost, entry, Request.argument, initialCapacity,
    Arena.maxCapacity]
  omega

/-! ### Taking in one frame -/

/-- The batch holds the requests of the frames `fs`, and the arena `a` is `start` after they were
paid for. -/
structure Paid (start : Arena) (fs : List Frame) (b : Batch) (a : Arena) : Prop where
  toList : b.toList = fs.map fun f => requestOf f.args
  capacity : b.capacity = capacityFor fs.length
  spends : start.Spends (cost fs) a

theorem Paid.used (h : Paid start fs b a) : b.used = fs.length := by
  rw [← Slots.length_toList, h.toList, List.length_map]

theorem Paid.isEmpty_iff (h : Paid start fs b a) : b.isEmpty = true ↔ fs = [] := by
  rw [Slots.isEmpty, h.used, beq_iff_eq, List.length_eq_zero_iff]

theorem Paid.close (h : Paid start fs b a) (hne : fs ≠ []) (consumed : Nat) :
    b.close consumed = some ⟨b, consumed⟩ := by
  rw [Batch.close, if_neg (mt h.isEmpty_iff.1 hne)]

/-- An empty batch is paid for, if the arena has room for its slots. -/
theorem reserve_cases (start : Arena) :
    (start.used + cost [] ≤ start.limit ∧
        ∃ b a, Batch.reserve start = (.ok b, a) ∧ Paid start [] b a) ∨
      (start.limit < start.used + cost [] ∧
        ∃ error a, Batch.reserve start = (.error error, a)) := by
  have hcost : entry.size * initialCapacity = cost [] := rfl
  rcases start.allocate_cases (show entry.align ≤ 8 by decide) initialCapacity with
    ⟨hroom, a, ha, hspends⟩ | ⟨hroom, error, a, ha, -⟩
  · refine .inl ⟨hcost ▸ hroom, _, a, by rw [Batch.reserve, ha], ?_, ?_, hcost ▸ hspends⟩
    · exact Slots.toList_ofCapacity _
    · exact Slots.capacity_ofCapacity _
  · exact .inr ⟨hcost ▸ hroom, error, a, by rw [Batch.reserve, ha]⟩

/-- Adding a request whose arguments are paid for: it gets a slot exactly if the arena can pay for
the slots of the batch with one request more. -/
theorem push_cases {f : Frame} (htoList : b.toList = fs.map fun f => requestOf f.args)
    (hcapacity : b.capacity = capacityFor fs.length)
    (hspends : start.Spends (cost fs + argsCost [f]) a) :
    (start.used + cost (fs ++ [f]) ≤ start.limit ∧
        ∃ b' a', b.push a (requestOf f.args) = (.ok b', a') ∧ Paid start (fs ++ [f]) b' a') ∨
      (start.limit < start.used + cost (fs ++ [f]) ∧
        ∃ error a', b.push a (requestOf f.args) = (.error error, a')) := by
  have hused : b.used = fs.length := by rw [← Slots.length_toList, htoList, List.length_map]
  have hlist {b' : Batch} (h : b'.toList = b.toList) (hroom : b'.used < b'.capacity) :
      (b'.add (requestOf f.args)).toList = (fs ++ [f]).map fun f => requestOf f.args := by
    rw [Slots.toList_add hroom, h, htoList, List.map_append, List.map_singleton]
  have hmax := hspends.limit ▸ a.used_le.trans a.capacity_le_limit
  rw [hspends.used] at hmax
  rcases Nat.lt_or_eq_of_le (le_capacityFor fs.length) with hspare | hfull
  · -- there is a slot to spare
    have hcap : capacityFor (fs ++ [f]).length = capacityFor fs.length := by
      rw [List.length_append, List.length_singleton, capacityFor_succ_of_lt hspare]
    have hroom : b.used < b.capacity := by rw [hused, hcapacity]; exact hspare
    rw [push, if_neg (by rw [Slots.isFull_iff]; omega), cost_append_of_lt hspare]
    exact .inl ⟨by omega, _, a, rfl, hlist rfl hroom, by rw [Slots.capacity_add, hcapacity, hcap],
      cost_append_of_lt hspare f ▸ hspends⟩
  · -- the batch moves to twice as many slots
    have hcap : capacityFor (fs ++ [f]).length = 2 * capacityFor fs.length := by
      rw [List.length_append, List.length_singleton, capacityFor_succ_of_eq hfull]
    have hmin : initialCapacity ≤ capacityFor fs.length := Nat.le_max_left ..
    have hsize : initialCapacity = 16 := rfl
    have hmore : max 1 (2 * b.capacity) = 2 * capacityFor fs.length := by rw [hcapacity]; omega
    have hcost := cost_append_of_eq hfull f
    rw [push, if_pos (by rw [Slots.isFull_iff, hused, hcapacity]; exact hfull.ge)]
    dsimp only
    rw [hmore]
    rcases a.allocate_cases (show entry.align ≤ 8 by decide) (2 * capacityFor fs.length) with
      ⟨hroom, a', ha, hgrown⟩ | ⟨hroom, error, a', ha, -⟩
    · rw [hspends.used, hspends.limit] at hroom
      rw [ha]
      have hwide : (b.widen (2 * capacityFor fs.length)).capacity = 2 * capacityFor fs.length :=
        Slots.capacity_widen (by omega)
      refine .inl ⟨by omega, _, a', rfl, hlist (Slots.toList_widen ..) ?_, ?_, ?_⟩
      · rw [Slots.used_widen, hwide, hused]
        omega
      · rw [Slots.capacity_add, hwide, hcap]
      · rw [hcost]
        exact hspends.trans hgrown
    · rw [hspends.used, hspends.limit] at hroom
      rw [ha]
      exact .inr ⟨by omega, error, a', rfl⟩

/-- **What becomes of the next frame.** It is taken in if the arena can pay for it; otherwise either
its arguments find no room, or the batch finds none to move to. -/
inductive Step (limits : Limits) (start : Arena) (fs : List Frame) (b : Batch) (a : Arena)
    (f : Frame) (bs : Bytes) : Prop
  | taken {a₁ : Arena} {b' : Batch} {a' : Arena}
      (request : request limits a bs = (.found (requestOf f.args) f.bytes.length, a₁))
      (push : b.push a₁ (requestOf f.args) = (.ok b', a'))
      (paid : Paid start (fs ++ [f]) b' a')
  | unpaid {error : ArenaError} {a' : Arena}
      (room : start.limit < start.used + (cost fs + argsCost [f]))
      (request : request limits a bs = (.failed (.arena error), a'))
      (paid : Paid start fs b a')
  | stuck {a₁ : Arena} {error : ArenaError} {a' : Arena}
      (paid : start.used + (cost fs + argsCost [f]) ≤ start.limit)
      (room : start.limit < start.used + cost (fs ++ [f]))
      (request : request limits a bs = (.found (requestOf f.args) f.bytes.length, a₁))
      (push : b.push a₁ (requestOf f.args) = (.error error, a'))

theorem Paid.step (h : Paid start fs b a) {f : Frame} (hf : f.WellFormed limits) {rest : Bytes}
    (hbs : Bytes.Addressable (f.bytes ++ rest)) :
    Step limits start fs b a f (f.bytes ++ rest) := by
  have hrequest := request_bytes hf hbs a
  have hargs : Request.argument.size * f.args.length = argsCost [f] := rfl
  rcases a.allocate_cases (show Request.argument.align ≤ 8 by decide) f.args.length with
    ⟨hroom, a₁, ha, hspent⟩ | ⟨hroom, error, a₁, ha, hspent⟩
  · rw [ha] at hrequest
    rw [hargs] at hroom hspent
    rw [h.spends.used, h.spends.limit, Nat.add_assoc] at hroom
    rcases push_cases h.toList h.capacity (h.spends.trans hspent) with
      ⟨-, b', a', hpush, hpaid⟩ | ⟨hfull, error, a', hpush⟩
    · exact .taken hrequest hpush hpaid
    · exact .stuck hroom hfull hrequest hpush
  · rw [ha] at hrequest
    rw [hargs, h.spends.used, h.spends.limit, Nat.add_assoc] at hroom
    exact .unpaid hroom hrequest ⟨h.toList, h.capacity, h.spends.trans hspent⟩

/-! ### The loop -/

/-- A request that is taken in makes the loop go on after it. -/
theorem readFrom_taken {bs : Bytes} (hne : bs ≠ []) {r : Request} {used : Nat} {a₁ a' : Arena}
    {b' : Batch} (hrequest : request limits a bs = (.found r used, a₁))
    (hpush : b.push a₁ r = (.ok b', a')) (consumed : Nat) :
    readFrom limits b a bs consumed = readFrom limits b' a' (bs.drop used) (consumed + used) := by
  rw [readFrom, if_neg (by simpa using hne)]
  split <;> rename_i hread <;> rw [hrequest] at hread <;> cases hread
  rw [hpush]

/-- A batch that finds no room to move to is an error, whatever it holds. -/
theorem readFrom_stuck {bs : Bytes} (hne : bs ≠ []) {r : Request} {used : Nat} {a₁ a' : Arena}
    {error : ArenaError} (hrequest : request limits a bs = (.found r used, a₁))
    (hpush : b.push a₁ r = (.error error, a')) (consumed : Nat) :
    readFrom limits b a bs consumed = (.error (.arena error), a') := by
  rw [readFrom, if_neg (by simpa using hne)]
  split <;> rename_i hread <;> rw [hrequest] at hread <;> cases hread
  rw [hpush]

/-- The beginning of a request ends the batch. -/
theorem readFrom_incomplete {bs : Bytes} {a' : Arena}
    (hrequest : request limits a bs = (.incomplete, a')) (consumed : Nat) :
    readFrom limits b a bs consumed = (.ok (b.close consumed), a') := by
  rw [readFrom]
  split
  · next hnil =>
    rw [List.isEmpty_iff.1 hnil] at hrequest
    cases hrequest
    rfl
  · split <;> rename_i hread <;> rw [hrequest] at hread <;> cases hread
    rfl

/-- Bytes that cannot be read end the batch, and are an error where they come first or the reader
crashes. -/
theorem readFrom_failed {bs : Bytes} {a' : Arena} {error : ParseError}
    (hrequest : request limits a bs = (.failed error, a')) (consumed : Nat) :
    readFrom limits b a bs consumed =
      if b.isEmpty || error.isCrash then (.error error, a')
      else (.ok (b.close consumed), a') := by
  rw [readFrom]
  split
  · next hnil =>
    rw [List.isEmpty_iff.1 hnil] at hrequest
    cases hrequest
  · split <;> rename_i hread <;> rw [hrequest] at hread <;> cases hread
    rfl

theorem readFrom_refused {bs : Bytes} {a' : Arena} {error : ParseError}
    (hrequest : request limits a bs = (.failed error, a'))
    (hrefused : b.isEmpty = true ∨ error.isCrash = true) (consumed : Nat) :
    readFrom limits b a bs consumed = (.error error, a') := by
  rw [readFrom_failed hrequest, if_pos (by simpa using hrefused)]

/-- An error behind some frames is put off. -/
theorem Paid.readFrom_deferred (h : Paid start fs b a) (hne : fs ≠ []) {bs : Bytes}
    {a₁ a' : Arena} {error : ParseError} (hrequest : request limits a₁ bs = (.failed error, a'))
    (hcrash : error.isCrash = false) (consumed : Nat) :
    readFrom limits b a₁ bs consumed = (.ok (some ⟨b, consumed⟩), a') := by
  have hnonempty : b.isEmpty = false := Bool.eq_false_iff.2 (mt h.isEmpty_iff.1 hne)
  rw [readFrom_failed hrequest, hnonempty, hcrash, h.close hne]
  rfl

/-- **Frames that can be paid for are all taken in**, whatever follows them. -/
theorem Paid.readFrom_frames (h : Paid start fs b a) {gs : List Frame}
    (hgs : ∀ g ∈ gs, g.WellFormed limits) {rest : Bytes}
    (hbs : Bytes.Addressable (framesBytes gs ++ rest))
    (hroom : start.used + cost (fs ++ gs) ≤ start.limit) (consumed : Nat) :
    ∃ b' a', Paid start (fs ++ gs) b' a' ∧
      readFrom limits b a (framesBytes gs ++ rest) consumed =
        readFrom limits b' a' rest (consumed + (framesBytes gs).length) := by
  induction gs generalizing fs b a consumed with
  | nil => exact ⟨b, a, (List.append_nil fs).symm ▸ h, rfl⟩
  | cons g gs ih =>
    obtain ⟨hg, hrest⟩ := List.forall_mem_cons.1 hgs
    rw [List.append_cons] at hroom
    rw [framesBytes_cons, List.append_assoc] at hbs ⊢
    have hone : start.used + cost (fs ++ [g]) ≤ start.limit :=
      (Nat.add_le_add_left cost_mono _).trans hroom
    have hne : g.bytes ++ (framesBytes gs ++ rest) ≠ [] :=
      List.append_ne_nil_of_left_ne_nil g.bytes_ne_nil _
    cases h.step hg hbs with
    | taken hrequest hpush hpaid =>
      obtain ⟨b', a', hpaid', hread⟩ :=
        ih hpaid hrest hbs.right hroom (consumed + g.bytes.length)
      refine ⟨b', a', (List.append_cons fs g gs).symm ▸ hpaid', ?_⟩
      rw [readFrom_taken hne hrequest hpush, List.drop_left, hread, List.length_append,
        Nat.add_assoc]
    | unpaid hfull =>
      have := cost_add_argsCost_le fs g
      omega
    | stuck _ hfull => omega

/-- **Reading takes in the frames that come first**, if they can be paid for, and goes on behind
them. -/
theorem read_frames_append (hfs : ∀ f ∈ fs, f.WellFormed limits) {rest : Bytes}
    (hbs : Bytes.Addressable (framesBytes fs ++ rest)) (hroom : a.used + cost fs ≤ a.limit) :
    ∃ b a', Paid a fs b a' ∧
      Batch.read limits a (framesBytes fs ++ rest) =
        readFrom limits b a' rest (framesBytes fs).length := by
  have hcost : cost [] ≤ cost fs := cost_mono
  rcases reserve_cases a with ⟨-, b, a₁, hreserve, hpaid⟩ | ⟨hnone, -⟩
  · obtain ⟨b', a', hpaid', hread⟩ := hpaid.readFrom_frames hfs hbs hroom 0
    refine ⟨b', a', hpaid', ?_⟩
    rw [Batch.read, hreserve]
    dsimp only
    rw [hread, Nat.zero_add]
  · omega

/-! ### The kind of the arena -/

theorem growable_of_request_reserve {count : Nat} {result : Except ArenaError Request} {a' : Arena}
    (h : Request.reserve a count = (result, a')) : a'.growable = a.growable := by
  unfold Request.reserve at h
  split at h <;> next hslots => cases h; exact Arena.growable_of_allocate hslots

theorem growable_single (a : Arena) (scan : Scan FrameError Bytes) :
    (single a scan).2.growable = a.growable := by
  unfold single
  split
  · split <;> next hslots => exact growable_of_request_reserve hslots
  · rfl
  · rfl

theorem growable_array (limits : Limits) (a : Arena) (bs : Bytes) :
    (Wire.array limits a bs).2.growable = a.growable := by
  unfold Wire.array
  repeat' split
  all_goals first | rfl | exact growable_of_request_reserve ‹_›

theorem growable_of_request {bs : Bytes} {scan : Scan ParseError Request} {a' : Arena}
    (h : request limits a bs = (scan, a')) : a'.growable = a.growable := by
  have hkept : (request limits a bs).2.growable = a.growable := by
    unfold request
    repeat' split
    · rfl
    · exact growable_array limits a _
    · exact growable_single a _
    · exact growable_single a _
  rwa [h] at hkept

theorem growable_of_push {r : Request} {result : Except ArenaError Batch} {a' : Arena}
    (h : b.push a r = (result, a')) : a'.growable = a.growable := by
  unfold push at h
  split at h
  · dsimp only at h
    split at h <;> next hslots => cases h; exact Arena.growable_of_allocate hslots
  · cases h
    rfl

theorem growable_readFrom (limits : Limits) (b : Batch) (a : Arena) (bs : Bytes) (consumed : Nat) :
    (readFrom limits b a bs consumed).2.growable = a.growable := by
  fun_induction readFrom limits b a bs consumed with
  | case1 => rfl
  | case2 b a bs consumed hne r used a₁ hrequest b' a₂ hpush ih =>
    exact ih.trans ((growable_of_push hpush).trans (growable_of_request hrequest))
  | case3 b a bs consumed hne r used a₁ hrequest error a₂ hpush =>
    exact (growable_of_push hpush).trans (growable_of_request hrequest)
  | case4 b a bs consumed hne a₁ hrequest => exact growable_of_request hrequest
  | case5 b a bs consumed hne error a₁ hrequest => exact growable_of_request hrequest
  | case6 b a bs consumed hne error a₁ hrequest => exact growable_of_request hrequest

/-- **Reading leaves a growable arena growable.** -/
theorem growable_of_read {bs : Bytes} {result : Except ParseError (Option Read)} {a' : Arena}
    (h : Batch.read limits a bs = (result, a')) : a'.growable = a.growable := by
  have hreserve {result : Except ArenaError Batch} {a₁ : Arena}
      (h : Batch.reserve a = (result, a₁)) : a₁.growable = a.growable := by
    unfold Batch.reserve at h
    split at h <;> next hslots => cases h; exact Arena.growable_of_allocate hslots
  unfold Batch.read at h
  split at h
  · next b a₁ hslots =>
    have hrest := growable_readFrom limits b a₁ bs 0
    rw [h] at hrest
    exact hrest.trans (hreserve hslots)
  · next hslots =>
    cases h
    exact hreserve hslots

end Batch
end RespStore
