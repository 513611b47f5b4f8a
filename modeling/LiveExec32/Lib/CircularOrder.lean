import Mathlib.Algebra.Order.Ring.Int

/-! # Circular sequence numbers

Sequence numbers count up and wrap at `2 * half`, so which of two numbers is older can only be told
while they lie close together. `before` is the usual comparison by wrapped difference. It is an
order on any window of `half` consecutive numbers: there it agrees with the distance from the
window's `base`, and every fact about it follows from facts about natural numbers. -/

namespace Circular

/-- How far `x` lies above `base`, wrapping at `2 * half`. -/
def offset (half base x : ℕ) : ℕ := if base ≤ x then x - base else x + 2 * half - base

/-- `x` is older than `y`, judged by their wrapped difference. -/
def before (half x y : ℕ) : Prop := if x < y then y - x < half else half ≤ x - y

/-- `x` is one of the `half` numbers that start at `base`. -/
structure InWindow (half base x : ℕ) : Prop where
  base_lt : base < 2 * half
  lt : x < 2 * half
  offset_lt : offset half base x < half

instance (half base x : ℕ) : Decidable (InWindow half base x) :=
  decidable_of_iff (base < 2 * half ∧ x < 2 * half ∧ offset half base x < half)
    ⟨fun h => ⟨h.1, h.2.1, h.2.2⟩, fun h => ⟨h.base_lt, h.lt, h.offset_lt⟩⟩

variable {half base x y : ℕ}

/-- **In a window the wrapped comparison is the order of the offsets.** -/
theorem before_iff_offset_lt (hx : InWindow half base x) (hy : InWindow half base y) :
    before half x y ↔ offset half base x < offset half base y := by
  obtain ⟨hbase, hxlt, hxoff⟩ := hx
  obtain ⟨-, hylt, hyoff⟩ := hy
  unfold before
  unfold offset at *
  split_ifs at * <;> omega

theorem offset_inj (hx : InWindow half base x) (hy : InWindow half base y)
    (h : offset half base x = offset half base y) : x = y := by
  obtain ⟨hbase, hxlt, -⟩ := hx
  have hylt := hy.lt
  unfold offset at h
  split_ifs at h <;> omega

end Circular
