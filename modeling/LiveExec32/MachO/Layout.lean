import LiveExec32.MachO.Copying
import Mathlib.Data.List.Forall2

/-! # What the replacement file holds

`placed_of_placeSlices` says where the slices go, and `writeReplacement_eq` what the file is: its
header and the contents of its slices, each at its place, and zeros between. -/

namespace LiveExec32.MachO

open Except

variable {file : File} {outputs : List OutputSlice}

/-! ## Places -/

theorem alignUInt64_two_pow (value exponent aligned : ℕ)
    (h : alignUInt64 value (2 ^ exponent) = some aligned) :
    value ≤ aligned ∧ 2 ^ exponent ∣ aligned := by
  unfold alignUInt64 at h
  split at h
  · simp at h
  · split at h
    · simp at h
    · cases h
      refine ⟨?_, Nat.dvd_mul_left _ _⟩
      have hdiv := Nat.div_add_mod (value + (2 ^ exponent - 1)) (2 ^ exponent)
      rw [Nat.mul_comm] at hdiv
      omega

/-- The slice at its place; nothing else about it changes. -/
structure PlacedAs (start : ℕ) (output placed : OutputSlice) : Prop where
  same : placed = { output with
    outputOffset := placed.outputOffset, outputAlignExponent := placed.outputAlignExponent }
  start_le : start ≤ placed.outputOffset
  end_le : placed.outputOffset + placed.size ≤ uint32Max
  align_eq : placed.outputAlignExponent = max output.sourceAlignExponent outputMinAlignExponent
  align_le : placed.outputAlignExponent ≤ 30
  aligned : 2 ^ placed.outputAlignExponent ∣ placed.outputOffset

variable {output placed : OutputSlice}

theorem PlacedAs.mono {start start' : ℕ} (hle : start ≤ start')
    (h : PlacedAs start' output placed) : PlacedAs start output placed :=
  { h with start_le := Nat.le_trans hle h.start_le }

theorem placedAs_of_placeSlice {outputSize next : ℕ}
    (h : placeSlice outputSize output = .ok (placed, next)) :
    PlacedAs outputSize output placed ∧ next = placed.outputOffset + placed.size := by
  unfold placeSlice at h
  simp only at h
  split at h
  · simp at h
  next aligned haligned =>
    split at haligned
    · simp at haligned
    next hexponent =>
      obtain ⟨hle, hdvd⟩ := alignUInt64_two_pow _ _ _ haligned
      split at h
      · simp at h
      · split at h
        · simp at h
        next sum hsum =>
          split at h
          · simp at h
          next hsmall =>
            unfold addUInt64 at hsum
            split at hsum
            · simp at hsum
            · cases hsum
              obtain ⟨rfl, rfl⟩ := Prod.mk.inj (ok.inj h)
              refine ⟨⟨rfl, hle, Nat.le_of_not_lt hsmall, ?_, Nat.le_of_not_lt hexponent, hdvd⟩,
                rfl⟩
              simp only [outputAlign]
              split <;> omega

/-- Slices one behind the other. -/
def InOrder (first second : OutputSlice) : Prop :=
  first.outputOffset + first.size ≤ second.outputOffset

/-- **The places of the slices**: each is aligned, they follow each other, and the file ends behind
    the last. -/
theorem placed_of_placeSlices {outputSize total : ℕ} {placed : List OutputSlice}
    (h : placeSlices outputSize outputs = .ok (placed, total)) :
    List.Forall₂ (PlacedAs outputSize) outputs placed ∧ placed.Pairwise InOrder ∧
      outputSize ≤ total ∧ (∀ s ∈ placed, s.outputOffset + s.size ≤ total) ∧
      (outputs ≠ [] → total ≤ uint32Max) := by
  induction outputs generalizing outputSize placed total with
  | nil =>
    obtain ⟨rfl, rfl⟩ := Prod.mk.inj (ok.inj h)
    exact ⟨.nil, .nil, Nat.le_refl _, by simp, fun hne => absurd rfl hne⟩
  | cons _ rest ih =>
    obtain ⟨⟨first, next⟩, hfirst, h⟩ := bind_eq_ok.mp h
    obtain ⟨⟨others, total'⟩, hothers, h⟩ := bind_eq_ok.mp h
    obtain ⟨rfl, rfl⟩ := Prod.mk.inj (ok.inj h)
    obtain ⟨hplaced, rfl⟩ := placedAs_of_placeSlice hfirst
    obtain ⟨hrest, horder, hle, hends, hsmall⟩ := ih hothers
    have hstart := hplaced.start_le
    have hbelow : ∀ s ∈ others, first.outputOffset + first.size ≤ s.outputOffset := by
      intro s hs
      obtain ⟨i, hi, rfl⟩ := List.getElem_of_mem hs
      have hi' : i < rest.length := by rwa [hrest.length_eq]
      exact (hrest.get hi' hi).start_le
    refine ⟨.cons hplaced (hrest.imp fun _ _ => .mono (by omega)),
      List.pairwise_cons.mpr ⟨hbelow, horder⟩, by omega, ?_, fun _ => ?_⟩
    · rw [List.forall_mem_cons]
      exact ⟨hle, hends⟩
    · cases rest with
      | nil =>
        obtain ⟨rfl, rfl⟩ := Prod.mk.inj (ok.inj hothers)
        exact hplaced.end_le
      | cons => exact hsmall (by simp)

/-! ## The whole file -/

/-- The write that puts a slice at its place. -/
def OutputSlice.write (s : OutputSlice) : Bytes.Write := (s.outputOffset, s.content.slice 0 s.size)

/-- The header and the slices, as writes. -/
def replacementWrites (outputs : List OutputSlice) (targetSliceCount : ℕ) : List Bytes.Write :=
  (0, encodeHeader outputs targetSliceCount) :: outputs.map OutputSlice.write

/-- An output slice that can be copied. -/
def OutputSlice.Copyable (s : OutputSlice) : Prop := s.Readable ∧ s.replacementIsValid = true

theorem copySlices_eq (hcopyable : ∀ s ∈ outputs, s.Copyable)
    (hfits : ∀ s ∈ outputs, s.outputOffset + s.size ≤ file.length) :
    copySlices file outputs
      = .ok { file with bytes := file.bytes.writeAll (outputs.map OutputSlice.write) } := by
  induction outputs generalizing file with
  | nil => rfl
  | cons _ _ ih =>
    rw [List.forall_mem_cons] at hcopyable hfits
    rw [copySlices, copyToFD_eq hcopyable.1.1 hcopyable.1.2 (by decide) hfits.1,
      mapError_ok, ok_bind]
    exact ih hcopyable.2 hfits.2

/-- **The replacement file is its header and its slices.** -/
theorem writeReplacement_eq {targetSliceCount total : ℕ} (hcopyable : ∀ s ∈ outputs, s.Copyable)
    (hfits : ∀ s ∈ outputs, s.outputOffset + s.size ≤ total) (htotal : total < 2 ^ 63)
    (hheader : (encodeHeader outputs targetSliceCount).length ≤ total) :
    writeReplacement outputs targetSliceCount total
      = .ok ⟨Bytes.writeAll (fun _ => 0) (replacementWrites outputs targetSliceCount), total,
        htotal⟩ := by
  rw [writeReplacement, dif_pos htotal, writeAt_of_fits (by
    rw [Nat.zero_add]
    exact hheader), mapError_ok, ok_bind, copySlices_eq hcopyable hfits]
  rfl

end LiveExec32.MachO
