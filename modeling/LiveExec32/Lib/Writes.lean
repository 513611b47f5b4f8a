import LiveExec32.Lib.Endian

/-! # Building a region by writes

A format is often laid out by writes to places that have nothing to do with each other. Each place
then holds what was written there, whatever the order. -/

namespace Bytes

open List

theorem slice_add (m : Bytes) (offset first second : ℕ) :
    m.slice offset (first + second) = m.slice offset first ++ m.slice (offset + first) second := by
  simp only [slice, range_add, map_append, map_map]
  congr 1
  exact map_congr_left fun i _ => by simp [Nat.add_assoc]

variable {m : Bytes} {offset : ℕ}

/-- Slices agree where the memories do. -/
theorem slice_congr {m' : Bytes} {offset' size : ℕ}
    (h : ∀ i < size, m (offset + i) = m' (offset' + i)) :
    m.slice offset size = m'.slice offset' size :=
  map_congr_left fun i hi => h i (mem_range.mp hi)

/-- The first bytes of a window are those of the memory. -/
theorem slice_window (m : Bytes) (offset size : ℕ) :
    (m.window offset size).slice 0 size = m.slice offset size := by
  refine slice_congr fun i hi => ?_
  rw [Nat.zero_add, window_apply hi]

/-- A write: where it goes, and the bytes. -/
abbrev Write := ℕ × List UInt8

/-- The place of a write misses that of another. -/
def Write.Apart (w w' : Write) : Prop := w.1 + w.2.length ≤ w'.1 ∨ w'.1 + w'.2.length ≤ w.1

/-- The byte at `i` is not in the place of a write. -/
def Write.Misses (w : Write) (i : ℕ) : Prop := i < w.1 ∨ w.1 + w.2.length ≤ i

def writeAll (m : Bytes) (writes : List Write) : Bytes :=
  writes.foldl (fun m w => m.write w.1 w.2) m

variable {writes : List Write} {i : ℕ}

/-- What no write touches stays. -/
theorem writeAll_of_misses (h : ∀ w ∈ writes, w.Misses i) (m : Bytes) :
    m.writeAll writes i = m i := by
  induction writes generalizing m with
  | nil => rfl
  | cons _ _ ih =>
    rw [forall_mem_cons] at h
    exact (ih h.2 _).trans (write_of_outside h.1)

variable {data : List UInt8}

/-- Inside its place, a write is seen. -/
theorem write_apply (hi : i < data.length) : m.write offset data (offset + i) = data.getD i 0 := by
  rw [write, if_pos ⟨by omega, by omega⟩, Nat.add_sub_cancel_left]

variable {w : Write}

/-- **Each place holds what was written there.** -/
theorem writeAll_of_mem (hapart : writes.Pairwise Write.Apart) (hw : w ∈ writes)
    (hi : i < w.2.length) (m : Bytes) :
    m.writeAll writes (w.1 + i) = w.2.getD i 0 := by
  induction writes generalizing m with
  | nil => exact absurd hw not_mem_nil
  | cons _ rest ih =>
    rw [pairwise_cons] at hapart
    rcases mem_cons.mp hw with rfl | hrest
    · have hmiss : ∀ other ∈ rest, other.Misses (w.1 + i) := by
        intro other hother
        rcases hapart.1 other hother with h | h
        · exact .inl (by omega)
        · exact .inr (by omega)
      exact (writeAll_of_misses hmiss _).trans (write_apply hi)
    · exact ih hapart.2 hrest _

theorem writeAll_append (m : Bytes) (first second : List Write) :
    m.writeAll (first ++ second) = (m.writeAll first).writeAll second := foldl_append

/-- A place that no later write touches holds what was written there. -/
theorem writeAll_of_last {before after : List Write} (hi : i < w.2.length)
    (hafter : ∀ other ∈ after, other.Misses (w.1 + i)) (m : Bytes) :
    m.writeAll (before ++ w :: after) (w.1 + i) = w.2.getD i 0 := by
  rw [writeAll_append]
  exact (writeAll_of_misses hafter _).trans (write_apply hi)

/-! ## Words in network order -/

/-- The bytes of a word, highest first. -/
def encodeBig (value : ℕ) : List UInt8 := (encodeWord value).reverse

@[simp] theorem length_encodeBig (value : ℕ) : (encodeBig value).length = 4 := rfl

/-- A word whose bytes are known. -/
theorem word_eq_of_bytes {k : ℕ} (h : ∀ i < 4, m (offset + i) = data.getD (k + i) 0) :
    m.word offset = word (fun i => data.getD i 0) k := by
  have h0 := h 0 (by omega)
  rw [Nat.add_zero, Nat.add_zero] at h0
  rw [word, word, h0, h 1 (by omega), h 2 (by omega), h 3 (by omega)]

/-- A word in network order reads back after a swap. -/
theorem word_encodeBig (value : ℕ) :
    word (fun i => (encodeBig value).getD i 0) 0 = swapInt32 (value % 2 ^ 32) := by
  obtain ⟨a, b, c, d, ha, hb, hc, hd, hvalue⟩ :=
    exists_bytes (Nat.mod_lt value (Nat.two_pow_pos 32))
  rw [hvalue, swapInt32_bytes ha hb hc hd]
  simp only [word, encodeBig, encodeWord, reverse_cons, reverse_nil, nil_append,
    cons_append, Nat.zero_add, getD_cons_zero, getD_cons_succ, UInt8.toNat_ofNat']
  omega

theorem swapInt32_word_encodeBig {value : ℕ} (h : value < 2 ^ 32) :
    swapInt32 (word (fun i => (encodeBig value).getD i 0) 0) = value := by
  rw [word_encodeBig, Nat.mod_eq_of_lt h, swapInt32_swapInt32 h]

end Bytes
