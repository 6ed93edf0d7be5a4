import Mathlib.Order.Defs.LinearOrder
import RespStore.Arena

/-!
# RespStore.Proofs.Arena

When an arena has room. An arena hands out memory up to its `limit`, which is its capacity if that
is fixed and the greatest capacity of all if it may grow. No operation changes the limit, so a
sequence of requests is decided by adding up their sizes (`allocate_cases`).
-/

namespace RespStore.Arena

/-- The bytes that an arena can come to hand out without being reset. -/
def limit (a : Arena) : Nat := if a.growable then maxCapacity else a.capacity

theorem limit_le (a : Arena) : a.limit ≤ maxCapacity := by
  unfold limit
  split
  · exact Nat.le_refl _
  · exact a.capacity_le

theorem capacity_le_limit (a : Arena) : a.capacity ≤ a.limit := by
  unfold limit
  split
  · exact a.capacity_le
  · exact Nat.le_refl _

@[simp] theorem limit_reset (a : Arena) : a.reset.limit = a.limit := rfl

@[simp] theorem used_reset (a : Arena) : a.reset.used = 0 := rfl

/-- The arena `b` comes from `a` by operations that use `bytes` more bytes. -/
structure Spends (a : Arena) (bytes : Nat) (b : Arena) : Prop where
  used : b.used = a.used + bytes
  growable : b.growable = a.growable
  limit : b.limit = a.limit

theorem Spends.refl (a : Arena) : Spends a 0 a := ⟨rfl, rfl, rfl⟩

theorem Spends.trans {a b c : Arena} {m n : Nat} (hab : Spends a m b) (hbc : Spends b n c) :
    Spends a (m + n) c :=
  ⟨by rw [hbc.used, hab.used, Nat.add_assoc], hbc.growable.trans hab.growable,
    hbc.limit.trans hab.limit⟩

/-- Doubling changes neither what is in use nor the limit. -/
theorem spends_double? {a b : Arena} (h : a.double? = some b) : Spends a 0 b := by
  unfold double? at h
  split at h
  · next hgrow =>
    cases h
    refine ⟨rfl, rfl, ?_⟩
    simp only [Arena.limit, hgrow.1, if_true]
  · cases h

/-- An arena that cannot double has reached its limit. -/
theorem limit_of_double? {a : Arena} (h : a.double? = none) : a.limit = a.capacity := by
  unfold double? at h
  split at h
  · cases h
  · next hstuck =>
    unfold limit
    split
    · next hgrow =>
      have hnotLt : ¬a.capacity < maxCapacity := fun hlt => hstuck ⟨hgrow, hlt⟩
      exact Nat.le_antisymm (Nat.not_lt.1 hnotLt) a.capacity_le
    · rfl

/-- **Doubling goes on until the bytes fit or the limit is reached.** -/
theorem spends_fit (a : Arena) (bytes : Nat) :
    Spends a 0 (a.fit bytes) ∧
      (a.used + bytes ≤ (a.fit bytes).capacity ↔ a.used + bytes ≤ a.limit) := by
  fun_induction fit a bytes with
  | case1 a hfits =>
    exact ⟨.refl a, iff_of_true hfits (Nat.le_trans hfits a.capacity_le_limit)⟩
  | case2 a hfits b hdouble ih =>
    have hb := spends_double? hdouble
    obtain ⟨hspends, hroom⟩ := ih
    rw [hb.used, Nat.add_zero, hb.limit] at hroom
    exact ⟨hb.trans hspends, hroom⟩
  | case3 a hfits hdouble =>
    rw [limit_of_double? hdouble]
    exact ⟨.refl a, Iff.rfl⟩

/-- **A request succeeds exactly if it fits below the limit**, and fails without using anything. -/
theorem reserve_cases (a : Arena) (bytes : Nat) :
    (a.used + bytes ≤ a.limit ∧ ∃ b, a.reserve bytes = (.ok (), b) ∧ Spends a bytes b) ∨
      (a.limit < a.used + bytes ∧
        ∃ error b, a.reserve bytes = (.error error, b) ∧ Spends a 0 b) := by
  obtain ⟨hspends, hroom⟩ := a.spends_fit bytes
  have hused : (a.fit bytes).used = a.used := hspends.used
  unfold reserve
  dsimp only
  split
  · next hfits =>
    have hspent : (a.fit bytes).used + bytes = a.used + bytes := by rw [hused]
    exact .inl ⟨hroom.1 (hspent ▸ hfits), _, rfl, hspent, hspends.growable, hspends.limit⟩
  · next hfits =>
    rw [hused, hroom, Nat.not_le] at hfits
    exact .inr ⟨hfits, _, _, rfl, hspends⟩

/-- The same for slots: below the limit no size is beyond what memory can hold. -/
theorem allocate_cases (a : Arena) {slot : Layout} (hslot : slot.align ≤ 8) (count : Nat) :
    (a.used + slot.size * count ≤ a.limit ∧
        ∃ b, a.allocate slot count = (.ok (), b) ∧ Spends a (slot.size * count) b) ∨
      (a.limit < a.used + slot.size * count ∧
        ∃ error b, a.allocate slot count = (.error error, b) ∧ Spends a 0 b) := by
  have hmax : a.limit ≤ 2 ^ 27 := a.limit_le
  unfold allocate sizeOf?
  by_cases hsize : slot.size * count ≤ (1 <<< 63) - slot.align
  · rw [if_pos hsize]
    exact a.reserve_cases _
  · rw [if_neg hsize]
    refine .inr ⟨?_, _, a, rfl, .refl a⟩
    have : 2 ^ 27 ≤ (1 <<< 63) - 8 := by decide
    omega

/-- Slots that were handed out fit below the limit. -/
theorem spends_of_allocate {a b : Arena} {slot : Layout} (hslot : slot.align ≤ 8) {count : Nat}
    (h : a.allocate slot count = (.ok (), b)) :
    a.used + slot.size * count ≤ a.limit ∧ Spends a (slot.size * count) b := by
  rcases a.allocate_cases hslot count with ⟨hroom, _, hok, hspends⟩ | ⟨-, _, _, herror, -⟩
  · rw [h] at hok
    cases hok
    exact ⟨hroom, hspends⟩
  · rw [h] at herror
    cases herror

/-- Slots of any kind are in use once they were handed out, and nothing is when they were not. -/
theorem spends_allocate (a : Arena) (slot : Layout) (count : Nat) :
    (∃ b, a.allocate slot count = (.ok (), b) ∧ Spends a (slot.size * count) b) ∨
      ∃ error b, a.allocate slot count = (.error error, b) ∧ Spends a 0 b := by
  unfold allocate sizeOf?
  split
  · next bytes hsize =>
    split at hsize
    · cases hsize
      rcases a.reserve_cases (slot.size * count) with ⟨-, b, hok, hspends⟩ |
        ⟨-, error, b, herror, hspends⟩
      · exact .inl ⟨b, hok, hspends⟩
      · exact .inr ⟨error, b, herror, hspends⟩
    · cases hsize
  · exact .inr ⟨_, a, rfl, .refl a⟩

/-- Handing out slots leaves a growable arena growable and a fixed one fixed. -/
theorem growable_of_allocate {a b : Arena} {slot : Layout} {count : Nat}
    {result : Except ArenaError Unit} (h : a.allocate slot count = (result, b)) :
    b.growable = a.growable := by
  unfold allocate at h
  split at h
  · next bytes _ =>
    have hfit := (a.spends_fit bytes).1.growable
    unfold reserve at h
    dsimp only at h
    split at h <;> cases h <;> exact hfit
  · cases h
    rfl

end RespStore.Arena
