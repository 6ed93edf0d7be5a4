import Mathlib.Algebra.Group.Nat.Defs
import RespStore.PowerOfTwo

/-!
# RespStore.Proofs.PowerOfTwo

The powers of two as powers: the test finds them, and rounding up goes to the least of them.
-/

namespace RespStore.PowerOfTwo

theorem test_iff {n : Nat} : test n = true ↔ ∃ k, n = 2 ^ k := by
  constructor
  · intro h
    rw [test_eq_true_iff, Nat.one_shiftLeft] at h
    exact ⟨n.log2, h.2.symm⟩
  · intro h
    obtain ⟨k, rfl⟩ := h
    rw [test_eq_true_iff, Nat.log2_two_pow, Nat.one_shiftLeft]
    exact ⟨Nat.pos_iff_ne_zero.1 (Nat.two_pow_pos k), rfl⟩

theorem ceil_eq_two_pow (n : Nat) : ∃ k, ceil n = 2 ^ k := by
  unfold ceil
  split
  · exact ⟨0, rfl⟩
  · exact ⟨_, Nat.one_shiftLeft _⟩

theorem test_ceil (n : Nat) : test (ceil n) = true := test_iff.2 (ceil_eq_two_pow n)

theorem le_ceil (n : Nat) : n ≤ ceil n := by
  unfold ceil
  split
  · omega
  · rw [Nat.one_shiftLeft]
    have := @Nat.lt_log2_self (n - 1)
    omega

/-- No smaller power of two is as large. -/
theorem ceil_le_two_pow {n k : Nat} (h : n ≤ 2 ^ k) : ceil n ≤ 2 ^ k := by
  unfold ceil
  split
  · exact Nat.two_pow_pos k
  · have hpos : n - 1 ≠ 0 := by omega
    have hlog : (n - 1).log2 < k := (Nat.log2_lt hpos).2 (by omega)
    rw [Nat.one_shiftLeft]
    exact Nat.pow_le_pow_right (by decide) hlog

theorem ceil_mono {m n : Nat} (h : m ≤ n) : ceil m ≤ ceil n := by
  obtain ⟨k, hk⟩ := ceil_eq_two_pow n
  rw [hk]
  exact ceil_le_two_pow (Nat.le_trans h (hk ▸ le_ceil n))

/-- The next power of two after one is its double. -/
theorem ceil_two_pow_add_one (k : Nat) : ceil (2 ^ k + 1) = 2 ^ (k + 1) := by
  obtain ⟨m, hm⟩ := ceil_eq_two_pow (2 ^ k + 1)
  have hlt : 2 ^ k < 2 ^ m := hm ▸ le_ceil (2 ^ k + 1)
  have hkm : k < m := (Nat.pow_lt_pow_iff_right (by decide)).1 hlt
  refine Nat.le_antisymm (ceil_le_two_pow ?_) ?_
  · have := Nat.two_pow_pos k
    rw [Nat.pow_succ]
    omega
  · rw [hm]
    exact Nat.pow_le_pow_right (by decide) hkm

end RespStore.PowerOfTwo
