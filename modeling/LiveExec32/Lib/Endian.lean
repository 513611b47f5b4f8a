import LiveExec32.Lib.Bytes

/-! # Words in either byte order

A word of a foreign byte order is read as it stands and then reversed. -/

namespace Bytes

/-- The bytes of the region of `size` bytes at `offset`; nothing but zeros behind it. -/
def window (m : Bytes) (offset size : ℕ) : Bytes := fun i => if i < size then m (offset + i) else 0

/-- The doubleword at `offset`. -/
def doubleword (m : Bytes) (offset : ℕ) : ℕ := m.word offset + 2 ^ 32 * m.word (offset + 4)

/-- The first zero byte among `length` bytes from `start` on, as `memchr` finds it. -/
def findZero (m : Bytes) (start length : ℕ) : Option ℕ :=
  ((List.range length).find? fun i => m (start + i) == 0).map (start + ·)

variable {m : Bytes} {offset size : ℕ}

theorem window_apply {i : ℕ} (hi : i < size) : m.window offset size i = m (offset + i) := if_pos hi

/-- A word inside a window is the word of the memory. -/
theorem word_window {base : ℕ} (hfits : offset + 4 ≤ size) :
    (m.window base size).word offset = m.word (base + offset) := by
  simp only [word]
  rw [window_apply (by omega), window_apply (by omega), window_apply (by omega),
    window_apply (by omega)]
  simp only [Nat.add_assoc]

/-- Windows agree where the memories do. -/
theorem window_congr {m' : Bytes} {offset' : ℕ}
    (h : ∀ i < size, m (offset + i) = m' (offset' + i)) :
    m.window offset size = m'.window offset' size := by
  funext i
  unfold window
  split
  next hi => exact h i hi
  next => rfl

end Bytes

/-- `OSSwapInt32`. -/
def swapInt32 (value : ℕ) : ℕ :=
  value % 2 ^ 8 * 2 ^ 24 + value / 2 ^ 8 % 2 ^ 8 * 2 ^ 16 + value / 2 ^ 16 % 2 ^ 8 * 2 ^ 8
    + value / 2 ^ 24 % 2 ^ 8

/-- `OSSwapInt64`. -/
def swapInt64 (value : ℕ) : ℕ :=
  swapInt32 (value % 2 ^ 32) * 2 ^ 32 + swapInt32 (value / 2 ^ 32 % 2 ^ 32)

theorem swapInt32_lt (value : ℕ) : swapInt32 value < 2 ^ 32 := by
  unfold swapInt32
  omega

theorem swapInt32_bytes {a b c d : ℕ} (ha : a < 2 ^ 8) (hb : b < 2 ^ 8) (hc : c < 2 ^ 8)
    (hd : d < 2 ^ 8) :
    swapInt32 (a + 2 ^ 8 * b + 2 ^ 16 * c + 2 ^ 24 * d)
      = d + 2 ^ 8 * c + 2 ^ 16 * b + 2 ^ 24 * a := by
  generalize hvalue : a + 2 ^ 8 * b + 2 ^ 16 * c + 2 ^ 24 * d = value
  have h0 : value % 2 ^ 8 = a := by omega
  have h1 : value / 2 ^ 8 % 2 ^ 8 = b := by omega
  have h2 : value / 2 ^ 16 % 2 ^ 8 = c := by omega
  have h3 : value / 2 ^ 24 % 2 ^ 8 = d := by omega
  rw [swapInt32, h0, h1, h2, h3]
  omega

variable {value : ℕ}

/-- Every word is four bytes. -/
theorem exists_bytes (h : value < 2 ^ 32) :
    ∃ a b c d, a < 2 ^ 8 ∧ b < 2 ^ 8 ∧ c < 2 ^ 8 ∧ d < 2 ^ 8 ∧
      value = a + 2 ^ 8 * b + 2 ^ 16 * c + 2 ^ 24 * d := by
  refine ⟨value % 2 ^ 8, value / 2 ^ 8 % 2 ^ 8, value / 2 ^ 16 % 2 ^ 8, value / 2 ^ 24, ?_⟩
  omega

theorem swapInt32_swapInt32 (h : value < 2 ^ 32) : swapInt32 (swapInt32 value) = value := by
  obtain ⟨a, b, c, d, ha, hb, hc, hd, rfl⟩ := exists_bytes h
  rw [swapInt32_bytes ha hb hc hd, swapInt32_bytes hd hc hb ha]
