import Mathlib.Algebra.Order.Ring.Int
import Mathlib.Data.List.GetD

/-! # Byte-addressed memory

`Bytes` is the memory from the first byte of an object on. It does not end where the object does:
what lies behind is whatever the surrounding memory holds, so a read past the end has a value,
though not one the object determines. Words are 32 bits wide and little-endian. -/

abbrev Bytes := ℕ → UInt8

namespace Bytes

open List

/-- The bytes of a word, lowest first; a larger number is truncated. -/
def encodeWord (value : ℕ) : List UInt8 :=
  [UInt8.ofNat value, UInt8.ofNat (value / 2 ^ 8), UInt8.ofNat (value / 2 ^ 16),
    UInt8.ofNat (value / 2 ^ 24)]

def encodeWords (values : List ℕ) : List UInt8 := values.flatMap encodeWord

/-- The memory seen from `offset` on. -/
def shift (m : Bytes) (offset : ℕ) : Bytes := fun i => m (offset + i)

/-- The word at `offset`. -/
def word (m : Bytes) (offset : ℕ) : ℕ :=
  (m offset).toNat + 2 ^ 8 * (m (offset + 1)).toNat + 2 ^ 16 * (m (offset + 2)).toNat
    + 2 ^ 24 * (m (offset + 3)).toNat

def slice (m : Bytes) (offset length : ℕ) : List UInt8 :=
  (List.range length).map fun i => m (offset + i)

/-- Copy `data` to `offset`. -/
def write (m : Bytes) (offset : ℕ) (data : List UInt8) : Bytes :=
  fun i => if offset ≤ i ∧ i < offset + data.length then data.getD (i - offset) 0 else m i

/-- The string that starts at `offset` ends before `limit`. -/
def Terminated (m : Bytes) (offset limit : ℕ) : Prop := ∃ i < limit, offset ≤ i ∧ m i = 0

instance (m : Bytes) (offset limit : ℕ) : Decidable (m.Terminated offset limit) :=
  inferInstanceAs (Decidable (∃ i < limit, offset ≤ i ∧ m i = 0))

variable {m : Bytes} {offset : ℕ}

theorem Terminated.mono {limit limit' : ℕ} (h : m.Terminated offset limit) (hle : limit ≤ limit') :
    m.Terminated offset limit' := by
  obtain ⟨i, hi, hfrom, hzero⟩ := h
  exact ⟨i, by omega, hfrom, hzero⟩

@[simp] theorem length_encodeWord (value : ℕ) : (encodeWord value).length = 4 := rfl

@[simp] theorem length_encodeWords (values : List ℕ) :
    (encodeWords values).length = 4 * values.length := by
  induction values with
  | nil => rfl
  | cons _ _ ih =>
    simp only [encodeWords, flatMap_cons, length_append, length_encodeWord, length_cons] at ih ⊢
    omega

@[simp] theorem length_slice (m : Bytes) (offset length : ℕ) :
    (m.slice offset length).length = length := by simp [slice]

@[simp] theorem word_shift (m : Bytes) (base offset : ℕ) :
    (m.shift base).word offset = m.word (base + offset) := rfl

theorem word_lt (m : Bytes) (offset : ℕ) : m.word offset < 2 ^ 32 := by
  have h0 := (m offset).toNat_lt
  have h1 := (m (offset + 1)).toNat_lt
  have h2 := (m (offset + 2)).toNat_lt
  have h3 := (m (offset + 3)).toNat_lt
  unfold word
  omega

@[simp] theorem write_nil (m : Bytes) (offset : ℕ) : m.write offset [] = m := by
  funext i
  simp only [write, length_nil]
  split
  · omega
  · rfl

variable {data : List UInt8}

theorem write_of_outside {i : ℕ} (h : i < offset ∨ offset + data.length ≤ i) :
    m.write offset data i = m i := by
  simp only [write]
  split
  · omega
  · rfl

/-- A write changes nothing iff its bytes are there already. -/
theorem write_eq_self_iff : m.write offset data = m ↔ data = m.slice offset data.length := by
  constructor
  · intro hsame
    refine ext_getElem (by simp) fun i hi _ => ?_
    have hbyte := congrFun hsame (offset + i)
    rw [write, if_pos (by omega), Nat.add_sub_cancel_left, getD_eq_getElem _ _ hi] at hbyte
    simp [slice, hbyte]
  · intro hdata
    funext i
    unfold write
    split
    · rename_i hi
      obtain ⟨k, rfl⟩ := Nat.exists_eq_add_of_le hi.1
      have hk : k < data.length := by omega
      rw [hdata]
      simp [slice, hk]
    · rfl

theorem write_singleton (m : Bytes) (offset : ℕ) (value : UInt8) :
    m.write offset [value] = Function.update m offset value := by
  funext i
  by_cases hi : i = offset
  · subst hi
    simp [write]
  · rw [Function.update_of_ne hi, write_of_outside]
    simp only [length_singleton]
    omega

/-- Writing two pieces one behind the other is one write. -/
@[simp] theorem write_append (m : Bytes) (offset : ℕ) (first second : List UInt8) :
    m.write offset (first ++ second)
      = (m.write offset first).write (offset + first.length) second := by
  funext i
  simp only [write, length_append]
  by_cases hlow : i < offset + first.length
  · by_cases hfrom : offset ≤ i
    · have hleft : i - offset < first.length := by omega
      rw [if_pos (by omega), if_neg (by omega), if_pos (by omega)]
      rw [getD_append _ _ _ _ hleft]
    · rw [if_neg (by omega), if_neg (by omega), if_neg (by omega)]
  · by_cases hhigh : i < offset + first.length + second.length
    · have hright : first.length ≤ i - offset := by omega
      rw [if_pos (by omega), if_pos (by omega), getD_append_right _ _ _ _ hright]
      congr 1
      omega
    · rw [if_neg (by omega), if_neg (by omega), if_neg (by omega)]

/-- A word is not changed by a write that misses its four bytes. -/
theorem word_write_of_disjoint {at_ : ℕ} (h : offset + 4 ≤ at_ ∨ at_ + data.length ≤ offset) :
    (m.write at_ data).word offset = m.word offset := by
  simp only [word]
  rw [write_of_outside (by omega), write_of_outside (by omega), write_of_outside (by omega),
    write_of_outside (by omega)]

/-- Reading back a word. -/
@[simp] theorem word_write_encodeWord (m : Bytes) (offset value : ℕ) :
    (m.write offset (encodeWord value)).word offset = value % 2 ^ 32 := by
  have hbyte : ∀ k < 4, m.write offset (encodeWord value) (offset + k)
      = (encodeWord value).getD k 0 := by
    intro k hk
    have hinside : offset ≤ offset + k ∧ offset + k < offset + (encodeWord value).length := by
      rw [length_encodeWord]
      omega
    simp only [write, if_pos hinside, Nat.add_sub_cancel_left]
  have hzero := hbyte 0 (by omega)
  rw [Nat.add_zero] at hzero
  rw [word, hzero, hbyte 1 (by omega), hbyte 2 (by omega), hbyte 3 (by omega)]
  simp only [encodeWord, getD_cons_zero, getD_cons_succ, UInt8.toNat_ofNat']
  omega

end Bytes
