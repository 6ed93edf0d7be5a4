/-!
# RespStore.PowerOfTwo

Sizes that are powers of two: testing for one and rounding up to one. Arenas, shards and tables
are all sized this way, the latter two so that some bits of a hash can be read as an index.
-/

namespace RespStore.PowerOfTwo

/-- The number is a power of two. -/
def test (n : Nat) : Bool := n != 0 && 1 <<< n.log2 == n

/-- The least power of two that is at least `n`. -/
def ceil (n : Nat) : Nat := if n ≤ 1 then 1 else 1 <<< ((n - 1).log2 + 1)

theorem test_eq_true_iff {n : Nat} : test n = true ↔ n ≠ 0 ∧ 1 <<< n.log2 = n := by
  simp [test]

/-- Twice a power of two is one. -/
theorem test_two_mul {n : Nat} (h : test n = true) : test (2 * n) = true := by
  rw [test_eq_true_iff] at h ⊢
  refine ⟨by omega, ?_⟩
  rw [Nat.log2_two_mul h.1, Nat.shiftLeft_succ, h.2]

/-- A power of two goes twice into every greater one. -/
theorem two_mul_le_of_test {m n : Nat} (hm : test m = true) (hn : test n = true) (h : m < n) :
    2 * m ≤ n := by
  rw [test_eq_true_iff] at hm hn
  rw [← hm.2, ← hn.2, Nat.one_shiftLeft, Nat.one_shiftLeft] at h
  have hlog : m.log2 + 1 ≤ n.log2 := (Nat.pow_lt_pow_iff_right (by decide)).1 h
  rw [← hm.2, ← hn.2, ← Nat.shiftLeft_succ, Nat.one_shiftLeft, Nat.one_shiftLeft]
  exact Nat.pow_le_pow_right (by decide) hlog

end RespStore.PowerOfTwo
