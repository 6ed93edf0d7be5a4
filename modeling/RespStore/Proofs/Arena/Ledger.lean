import RespStore.Proofs.Arena
import RespStore.Proofs.Calls
import RespStore.Proofs.Wire.Checked

/-!
# RespStore.Proofs.Arena.Ledger

The account of an arena over whole runs of calls. A request is granted if it fits below the limit,
and then the capacity is doubled no further than that takes (`LeastDoubling`). A request that is
refused leaves the capacity at the limit and the bytes in use as they were (`reserve_exact`).

`Ledger` is the account as a machine keeps it: numbers of which nothing is known, and a request that
tries, doubles and tries again. A sum or a double that is no word, and a request that goes on for
more than so many passes, give `none`. For an arena that does not happen (`Ledger.perform_eq`), so
the ledger of a run says at its end what the arena says.
-/

namespace RespStore.Arena

open RespStore.Checked (add add_of_lt)

/-! ### Calls -/

/-- A call of an arena. -/
inductive Call
  | allocate (slot : Layout) (count : Nat)
  | grow
  | reset
  deriving Repr, DecidableEq

/-- What a call answers. -/
inductive Answer
  | slots (result : Except ArenaError Unit)
  | grown (result : Except ArenaError Nat)
  | emptied
  deriving Repr, DecidableEq

/-- Makes a call. -/
def perform (a : Arena) : Call → Answer × Arena
  | .allocate slot count =>
    let (result, a) := a.allocate slot count
    (.slots result, a)
  | .grow =>
    let (result, a) := a.grow
    (.grown result, a)
  | .reset => (.emptied, a.reset)

variable {a b : Arena} {bytes : Nat}

/-! ### Doubling -/

/-- The capacity `grown` is the least that `capacity` can be doubled to with room for `total`
bytes. -/
structure LeastDoubling (capacity total grown : Nat) : Prop where
  doubled : ∃ k, grown = capacity * 2 ^ k
  fits : total ≤ grown
  least : ∀ k, total ≤ capacity * 2 ^ k → grown ≤ capacity * 2 ^ k

theorem LeastDoubling.refl {capacity total : Nat} (h : total ≤ capacity) :
    LeastDoubling capacity total capacity :=
  ⟨⟨0, by rw [Nat.pow_zero, Nat.mul_one]⟩, h,
    fun k _ => Nat.le_mul_of_pos_right _ (Nat.two_pow_pos k)⟩

/-- Where there is not room enough, the capacity is doubled once at least. -/
theorem LeastDoubling.double {capacity total grown : Nat} (hlt : capacity < total)
    (h : LeastDoubling (2 * capacity) total grown) : LeastDoubling capacity total grown := by
  have hpow (k : Nat) : 2 * capacity * 2 ^ k = capacity * 2 ^ (k + 1) := by
    rw [Nat.pow_succ, Nat.mul_comm 2 capacity, Nat.mul_assoc, Nat.mul_comm 2]
  obtain ⟨k, hk⟩ := h.doubled
  refine ⟨⟨k + 1, by rw [hk, hpow]⟩, h.fits, ?_⟩
  intro j hj
  cases j with
  | zero => omega
  | succ j =>
    rw [← hpow] at hj ⊢
    exact h.least j hj

theorem fit_of_le (h : a.used + bytes ≤ a.capacity) : a.fit bytes = a := by rw [fit, if_pos h]

theorem fit_of_double?_eq_none (h : a.double? = none) : a.fit bytes = a := by
  rw [fit]
  split
  · rfl
  · split
    · next b hb =>
      rw [h] at hb
      cases hb
    · rfl

theorem fit_of_double?_eq_some (hlarge : ¬a.used + bytes ≤ a.capacity) (h : a.double? = some b) :
    a.fit bytes = b.fit bytes := by
  rw [fit, if_neg hlarge]
  split
  · next c hc =>
    rw [h, Option.some.injEq] at hc
    rw [hc]
  · next hnone =>
    rw [h] at hnone
    cases hnone

/-- **Doubling goes no further than it has to**, and as far as it can where that is not enough. -/
theorem capacity_fit (a : Arena) (bytes : Nat) :
    (a.used + bytes ≤ a.limit ∧
        LeastDoubling a.capacity (a.used + bytes) (a.fit bytes).capacity) ∨
      (a.limit < a.used + bytes ∧ (a.fit bytes).capacity = a.limit) := by
  fun_induction fit a bytes with
  | case1 a hfits => exact .inl ⟨Nat.le_trans hfits a.capacity_le_limit, .refl hfits⟩
  | case2 a hfits b hdouble ih =>
    have hb := spends_double? hdouble
    rw [hb.used, Nat.add_zero, hb.limit, (capacity_double? hdouble).1] at ih
    exact ih.imp_left fun hgranted => ⟨hgranted.1, hgranted.2.double (Nat.lt_of_not_le hfits)⟩
  | case3 a hfits hdouble =>
    have hlimit := limit_of_double? hdouble
    exact .inr ⟨hlimit ▸ Nat.lt_of_not_le hfits, hlimit.symm⟩

/-- **What a request comes to.** It is granted exactly if it fits below the limit. -/
theorem reserve_exact (a : Arena) (bytes : Nat) :
    (a.used + bytes ≤ a.limit ∧ ∃ b, a.reserve bytes = (.ok (), b) ∧
        b.used = a.used + bytes ∧ LeastDoubling a.capacity (a.used + bytes) b.capacity) ∨
      (a.limit < a.used + bytes ∧
        ∃ b, a.reserve bytes = (.error (.exhausted bytes a.used a.limit), b) ∧
          b.used = a.used ∧ b.capacity = a.limit) := by
  have hused : (a.fit bytes).used = a.used := (a.spends_fit bytes).1.used
  unfold reserve
  dsimp only
  rcases a.capacity_fit bytes with ⟨hroom, hleast⟩ | ⟨hfull, hcapacity⟩
  · left
    have hfits : (a.fit bytes).used + bytes ≤ (a.fit bytes).capacity := hused ▸ hleast.fits
    rw [dif_pos hfits]
    exact ⟨hroom, _, rfl, congrArg (· + bytes) hused, hleast⟩
  · right
    have hfits : ¬(a.fit bytes).used + bytes ≤ (a.fit bytes).capacity := by omega
    rw [dif_neg hfits, hused, hcapacity]
    exact ⟨hfull, _, rfl, hused, hcapacity⟩

/-- The arena `b` comes from `a` by doubling, whatever became of the bytes in use. -/
structure Doubles (a b : Arena) : Prop where
  growable : b.growable = a.growable
  capacity : ∃ k, b.capacity = a.capacity * 2 ^ k

theorem Doubles.refl (a : Arena) : Doubles a a :=
  ⟨rfl, 0, by rw [Nat.pow_zero, Nat.mul_one]⟩

theorem Doubles.trans {c : Arena} (hab : Doubles a b) (hbc : Doubles b c) : Doubles a c := by
  obtain ⟨j, hj⟩ := hab.capacity
  obtain ⟨k, hk⟩ := hbc.capacity
  exact ⟨hbc.growable.trans hab.growable, j + k, by rw [hk, hj, Nat.pow_add, Nat.mul_assoc]⟩

theorem Doubles.capacity_le (h : Doubles a b) : a.capacity ≤ b.capacity := by
  obtain ⟨k, hk⟩ := h.capacity
  rw [hk]
  exact Nat.le_mul_of_pos_right _ (Nat.two_pow_pos k)

theorem doubles_double? (h : a.double? = some b) : Doubles a b :=
  ⟨(spends_double? h).growable, 1, by rw [(capacity_double? h).1, Nat.pow_one, Nat.mul_comm]⟩

theorem doubles_fit (a : Arena) (bytes : Nat) : Doubles a (a.fit bytes) := by
  fun_induction fit a bytes with
  | case1 a hfits => exact .refl a
  | case2 a hfits b hdouble ih => exact (doubles_double? hdouble).trans ih
  | case3 a hfits hdouble => exact .refl a

/-- A call doubles the capacity a number of times, if it changes it at all. -/
theorem doubles_perform (a : Arena) (call : Call) : Doubles a (a.perform call).2 := by
  cases call with
  | allocate slot count =>
    dsimp only [perform, allocate]
    cases sizeOf? slot count with
    | none => exact .refl a
    | some bytes =>
      have hfit := a.doubles_fit bytes
      dsimp only [reserve]
      split <;> exact ⟨hfit.growable, hfit.capacity⟩
  | grow =>
    dsimp only [perform, grow]
    cases hdouble : a.double? with
    | none => exact .refl a
    | some b => exact doubles_double? hdouble
  | reset => exact ⟨rfl, 0, (Nat.mul_one _).symm⟩

theorem doubles_run (a : Arena) (calls : List Call) : Doubles a (Calls.run perform a calls).2 :=
  Calls.run_keeps (P := fun _ b => Doubles a b)
    (fun _ b call h => h.trans (b.doubles_perform call)) (n := 0) (.refl a) calls

/-- **An arena that was reset is a new one** of its capacity. -/
theorem create_reset (a : Arena) : create a.growable a.capacity = .ok a.reset := dif_pos a.valid

/-! ### The account as a machine keeps it -/

theorem le_of_sizeOf? {slot : Layout} {count : Nat} (h : sizeOf? slot count = some bytes) :
    bytes ≤ 2 ^ 63 := by
  unfold sizeOf? at h
  split at h
  · cases h
    omega
  · cases h

/-- The bytes in use and those of a request add up to a word. -/
theorem used_add_lt (a : Arena) (h : bytes ≤ 2 ^ 63) : a.used + bytes < Word.size := by
  have hused := a.used_le
  have hcapacity : a.capacity ≤ 2 ^ 27 := a.capacity_le
  unfold Word.size
  omega

/-- The numbers of an arena. They need not go together. -/
structure Ledger where
  capacity : Nat
  used : Nat
  growable : Bool
  deriving Repr, DecidableEq

/-- The numbers of the arena. -/
def ledger (a : Arena) : Ledger := ⟨a.capacity, a.used, a.growable⟩

namespace Ledger

variable {l : Ledger}

/-- Twice the capacity, where the arena may grow. -/
def double? (l : Ledger) : Option (Option Ledger) :=
  if l.growable = true ∧ l.capacity < maxCapacity then do
    let capacity ← add l.capacity l.capacity
    some (some { l with capacity })
  else some none

/-- Hands out `bytes` bytes: tries, doubles the capacity and tries again, `passes` times at most. -/
def reserve (bytes : Nat) : (passes : Nat) → Ledger → Option (Except ArenaError Unit × Ledger)
  | 0, _ => none
  | passes + 1, l => do
    let used ← add l.used bytes
    if used ≤ l.capacity then some (.ok (), { l with used })
    else
      match ← l.double? with
      | some l => reserve bytes passes l
      | none => some (.error (.exhausted bytes l.used l.capacity), l)

/-- Makes a call. -/
def perform (passes : Nat) (l : Ledger) : Call → Option (Answer × Ledger)
  | .allocate slot count => do
    match sizeOf? slot count with
    | some bytes =>
      let (result, l) ← l.reserve bytes passes
      some (.slots result, l)
    | none => some (.slots (.error .overflow), l)
  | .grow => do
    match ← l.double? with
    | some l => some (.grown (.ok l.capacity), l)
    | none => some (.grown (.error (.exhausted l.capacity l.used l.capacity)), l)
  | .reset => some (.emptied, { l with used := 0 })

/-- The most passes of a request. The least capacity can be doubled once less before it is the
greatest. -/
def maxPasses : Nat := 18

theorem double?_eq (a : Arena) : a.ledger.double? = some (a.double?.map Arena.ledger) := by
  have hcapacity : a.capacity ≤ 2 ^ 27 := a.capacity_le
  have hword : a.capacity + a.capacity < Word.size := by
    unfold Word.size
    omega
  simp only [double?, Arena.double?, ledger, add_of_lt hword]
  by_cases h : a.growable = true ∧ a.capacity < maxCapacity
  · rw [if_pos h, dif_pos h, ← Nat.two_mul]
    rfl
  · rw [if_neg h, dif_neg h]
    rfl

/-- **A request comes to an end** before the capacity would be doubled beyond the greatest. -/
theorem reserve_eq {bytes : Nat} (hbytes : bytes ≤ 2 ^ 63) {passes : Nat} (a : Arena)
    (hpasses : maxCapacity < a.capacity * 2 ^ passes) :
    reserve bytes passes a.ledger = some ((a.reserve bytes).1, (a.reserve bytes).2.ledger) := by
  induction passes generalizing a with
  | zero =>
    have := a.capacity_le
    omega
  | succ passes ih =>
    have hword : a.ledger.used + bytes < Word.size := a.used_add_lt hbytes
    rw [reserve, add_of_lt hword, double?_eq]
    simp only [Option.bind_eq_bind, Option.bind_some]
    by_cases hfits : a.used + bytes ≤ a.capacity
    · rw [if_pos (show a.ledger.used + bytes ≤ a.ledger.capacity from hfits)]
      simp only [Arena.reserve, fit_of_le hfits, dif_pos hfits]
      rfl
    · rw [if_neg (show ¬a.ledger.used + bytes ≤ a.ledger.capacity from hfits)]
      cases hdouble : a.double? with
      | none =>
        simp only [Arena.reserve, fit_of_double?_eq_none hdouble, dif_neg hfits]
        rfl
      | some b =>
        have hmore : maxCapacity < b.capacity * 2 ^ passes := by
          rw [(capacity_double? hdouble).1]
          calc maxCapacity < a.capacity * 2 ^ (passes + 1) := hpasses
            _ = 2 * a.capacity * 2 ^ passes := by ring
        have hreserve : a.reserve bytes = b.reserve bytes := by
          simp only [Arena.reserve, fit_of_double?_eq_some hfits hdouble]
        rw [hreserve]
        exact ih b hmore

/-- **No check of a call fails**, and the ledger goes on saying what the arena says. -/
theorem perform_eq (a : Arena) (call : Call) :
    a.ledger.perform maxPasses call = some ((a.perform call).1, (a.perform call).2.ledger) := by
  cases call with
  | allocate slot count =>
    dsimp only [perform, Arena.perform, Arena.allocate]
    cases hsize : sizeOf? slot count with
    | none => rfl
    | some bytes =>
      have hleast : minCapacity ≤ a.capacity := (isValidCapacity_iff.1 a.valid).1
      have hpasses : maxCapacity < a.capacity * 2 ^ maxPasses :=
        calc maxCapacity < minCapacity * 2 ^ maxPasses := by decide
          _ ≤ a.capacity * 2 ^ maxPasses := Nat.mul_le_mul_right _ hleast
      dsimp only
      rw [reserve_eq (le_of_sizeOf? hsize) a hpasses]
      rfl
  | grow =>
    dsimp only [perform, Arena.perform, Arena.grow]
    rw [double?_eq]
    cases a.double? <;> rfl
  | reset => rfl

end Ledger

/-! ### Runs of calls -/

/-- **The account of an arena over whole runs.** Whatever is asked of an arena that was created with
a valid capacity, the bytes in use stay within the capacity and that within 128 MiB. The capacity is
the first one doubled a number of times, and never decreases. No sum leaves a word, and no request
takes more than `Ledger.maxPasses` passes.

A request succeeds if and only if it fits below the limit, which is the capacity of a fixed arena
and 128 MiB for one that may grow. Then the capacity is doubled no more than that takes. If it
fails, the bytes in use stay as they are, and the capacity is the limit.

Resetting an arena makes it a new one of the capacity that it has come to. -/
theorem run_accounts {capacity : Nat} (h : isValidCapacity capacity = true) (growable : Bool) :
    ∃ a₀, create growable capacity = .ok a₀ ∧ ∀ calls : List Call,
      let run := Calls.run perform a₀ calls
      let a := run.2
      let limit := if growable then maxCapacity else a.capacity
      Calls.run? (Ledger.perform Ledger.maxPasses) ⟨capacity, 0, growable⟩ calls =
          some (run.1, ⟨a.capacity, a.used, growable⟩) ∧
        a.used ≤ a.capacity ∧ a.capacity ≤ 128 * 1024 * 1024 ∧
        (∃ k, a.capacity = capacity * 2 ^ k) ∧
        (∀ later, a.capacity ≤ (Calls.run perform a later).2.capacity) ∧
        (∀ slot count bytes, sizeOf? slot count = some bytes →
          a.used + bytes < Word.size ∧
            ((a.used + bytes ≤ limit ∧ ∃ b, a.allocate slot count = (.ok (), b) ∧
                b.used = a.used + bytes ∧
                LeastDoubling a.capacity (a.used + bytes) b.capacity) ∨
              (limit < a.used + bytes ∧ ∃ b,
                a.allocate slot count = (.error (.exhausted bytes a.used limit), b) ∧
                  b.used = a.used ∧ b.capacity = limit))) ∧
        (∀ slot count, sizeOf? slot count = none →
          a.allocate slot count = (.error .overflow, a)) ∧
        create growable a.capacity = .ok a.reset := by
  generalize hnew : (⟨capacity, 0, growable, h, Nat.zero_le _⟩ : Arena) = a₀
  have hcreate : create growable capacity = .ok a₀ := hnew ▸ dif_pos h
  have hstart : a₀.ledger = ⟨capacity, 0, growable⟩ := hnew ▸ rfl
  refine ⟨a₀, hcreate, ?_⟩
  intro calls run a limit
  have hdoubles : Doubles a₀ a := doubles_run a₀ calls
  have hcapacity : a₀.capacity = capacity := congrArg Ledger.capacity hstart
  have hgrowable : a.growable = growable :=
    hdoubles.growable.trans (congrArg Ledger.growable hstart)
  have hledger : a.ledger = ⟨a.capacity, a.used, growable⟩ := by rw [ledger, hgrowable]
  have hlimit : a.limit = limit := by rw [Arena.limit, hgrowable]
  refine ⟨?_, a.used_le, a.capacity_le, hcapacity ▸ hdoubles.capacity, ?_, ?_, ?_, ?_⟩
  · rw [← hstart, ← hledger]
    exact Calls.run?_eq Ledger.perform_eq a₀ calls
  · intro later
    exact (doubles_run a later).capacity_le
  · intro slot count bytes hsize
    have hallocate : a.allocate slot count = a.reserve bytes := by rw [allocate, hsize]
    have hword : a.used + bytes < Word.size := a.used_add_lt (le_of_sizeOf? hsize)
    rw [hallocate, ← hlimit]
    exact ⟨hword, a.reserve_exact bytes⟩
  · intro slot count hsize
    rw [allocate, hsize]
  · rw [← hgrowable]
    exact a.create_reset

/-- The second request doubles the capacity twice; a third one that is too large leaves it at the
greatest. -/
theorem run_accounts_two_doublings :
    isValidCapacity 1024 = true ∧ ∃ a₀, create true 1024 = .ok a₀ ∧
      let a := (Calls.run perform a₀ [.allocate .byte 1000, .allocate .byte 1500]).2
      a.used = 2500 ∧ a.capacity = 4096 ∧ create true 4096 = .ok a.reset ∧
        ∃ b, a.allocate .byte maxCapacity = (.error (.exhausted maxCapacity 2500 maxCapacity), b) ∧
          b.used = 2500 ∧ b.capacity = maxCapacity := by
  have hvalid : isValidCapacity 1024 = true := by decide
  obtain ⟨a₀, hcreate, hruns⟩ := run_accounts hvalid true
  refine ⟨hvalid, a₀, hcreate, ?_⟩
  obtain ⟨hledger, -, -, -, -, hrequests, -, hreset⟩ :=
    hruns [.allocate .byte 1000, .allocate .byte 1500]
  -- what the run comes to can be computed on the ledger
  have hcomputed : Calls.run? (Ledger.perform Ledger.maxPasses) ⟨1024, 0, true⟩
      [.allocate .byte 1000, .allocate .byte 1500] =
        some ([.slots (.ok ()), .slots (.ok ())], ⟨4096, 2500, true⟩) := by decide
  rw [hcomputed, Option.some.injEq, Prod.mk.injEq, Ledger.mk.injEq] at hledger
  obtain ⟨-, hcapacity, hused, -⟩ := hledger
  obtain ⟨-, hrequest⟩ := hrequests .byte maxCapacity maxCapacity (by decide)
  rw [← hcapacity] at hreset
  rw [← hused, if_pos rfl] at hrequest
  refine ⟨hused.symm, hcapacity.symm, hreset, ?_⟩
  rcases hrequest with ⟨hroom, -⟩ | ⟨-, hrefused⟩
  · exact absurd hroom (by decide)
  · exact hrefused

end RespStore.Arena
