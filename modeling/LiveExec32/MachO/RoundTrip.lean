import LiveExec32.MachO.Acceptance
import LiveExec32.MachO.Layout

/-! # The reader accepts what the injector writes

The layout and the reader's checks are written apart. Here they meet: a slice is parsed alike
wherever it lies (`SliceChecked.transfer`), the table reads back (`readDescriptor_eq`), and so the
whole file is accepted and has the slices it was made from. -/

namespace LiveExec32.MachO

open List Bytes Except

/-! ## A slice is parsed alike wherever it lies -/

variable {heap : ℕ → Bool}

/-- Only the header and the load commands matter. -/
theorem SliceChecked.transfer {bytes bytes' : Bytes} {o o' size : ℕ} {form : HeaderForm}
    {before recorded : Recorded} {state : LoadCommandState}
    (h : SliceChecked heap bytes o size form before recorded state)
    (hsame : ∀ i < form.headerSize + headerField bytes o form 20, bytes' (o' + i) = bytes (o + i)) :
    SliceChecked heap bytes' o' size form before recorded state ∧
      ∀ slice, sliceOf bytes' o' form recorded slice = sliceOf bytes o form recorded slice := by
  have hheader := headerForm_headerSize h.form_eq
  have hword : ∀ offset ≤ 20, bytes'.word (o' + offset) = bytes.word (o + offset) := by
    intro offset hoffset
    have hbyte : ∀ k < 4, bytes' (o' + offset + k) = bytes (o + offset + k) := by
      intro k hk
      rw [Nat.add_assoc, hsame (offset + k) (by omega), Nat.add_assoc]
    simp only [word]
    have hzero := hbyte 0 (by omega)
    rw [Nat.add_zero, Nat.add_zero] at hzero
    rw [hzero, hbyte 1 (by omega), hbyte 2 (by omega), hbyte 3 (by omega)]
  have hfield : ∀ offset ≤ 20,
      headerField bytes' o' form offset = headerField bytes o form offset :=
    fun offset hoffset => by rw [headerField, headerField, hword offset hoffset]
  have hmagic : bytes'.word o' = bytes.word o := hword 0 (by omega)
  have htable : commandTable bytes' o' size form = commandTable bytes o size form := by
    simp only [commandTable, hfield 20 (by omega)]
    congr 1
    refine window_congr fun i hi => ?_
    rw [Nat.add_assoc, hsame (form.headerSize + i) (by omega), Nat.add_assoc]
  refine ⟨?_, fun slice => ?_⟩
  · refine ⟨h.four_le, ?_, h.header_le, ?_, ?_, ?_, ?_, h.checked⟩
    · rw [hmagic]
      exact h.form_eq
    · rw [hfield 4 (by omega)]
      exact h.width
    · rw [hfield 16 (by omega), hfield 20 (by omega)]
      exact h.table
    · rw [hfield 20 (by omega)]
      exact h.buffer
    · rw [htable, hfield 16 (by omega), hfield 20 (by omega)]
      exact h.commands
  · simp only [sliceOf, hfield 4 (by omega), hfield 8 (by omega), hfield 12 (by omega),
      hfield 16 (by omega), hfield 20 (by omega)]

/-! ## The table reads back -/

variable {α : Type} {i : ℕ}

/-- Position `n * i + k` of blocks of length `n` is position `k` of block `i`. -/
theorem getElem?_flatMap_of_length {β : Type} {f : α → List β} {n : ℕ}
    (hlength : ∀ a, (f a).length = n) {l : List α} {k : ℕ} (hi : i < l.length) (hk : k < n) :
    (l.flatMap f)[n * i + k]? = (f l[i])[k]? := by
  induction l generalizing i with
  | nil => exact absurd hi (Nat.not_lt_zero i)
  | cons a _ ih =>
    rw [flatMap_cons]
    cases i with
    | zero =>
      rw [Nat.mul_zero, Nat.zero_add, getElem?_append_left (by rw [hlength]; exact hk)]
      rfl
    | succ i =>
      have hpast : (f a).length ≤ n * (i + 1) + k := by
        rw [hlength, Nat.mul_succ]
        omega
      rw [getElem?_append_right hpast, hlength,
        show n * (i + 1) + k - n = n * i + k by rw [Nat.mul_succ]; omega,
        ih (Nat.lt_of_succ_lt_succ hi)]
      rfl

theorem length_flatMap_encodeBig (words : List ℕ) :
    (words.flatMap encodeBig).length = 4 * words.length := by
  simp [length_flatMap, Nat.mul_comm]

variable {j : ℕ}

/-- Word `j` of a region that starts with words in network order. -/
theorem swapInt32_word_of_encodeBig {m : Bytes} {words : List ℕ} (hj : j < words.length)
    (hsmall : words[j] < 2 ^ 32)
    (hm : ∀ i < (words.flatMap encodeBig).length, m i = (words.flatMap encodeBig).getD i 0) :
    swapInt32 (m.word (4 * j)) = words[j] := by
  have hlength := length_flatMap_encodeBig words
  have hbytes : ∀ k < 4, m (4 * j + k) = (encodeBig words[j]).getD (0 + k) 0 := by
    intro k hk
    rw [hm (4 * j + k) (by rw [hlength]; omega), getD_eq_getElem?_getD,
      getElem?_flatMap_of_length length_encodeBig hj hk, Nat.zero_add,
      getD_eq_getElem?_getD]
  rw [word_eq_of_bytes hbytes, swapInt32_word_encodeBig hsmall]

theorem filterMap_range_getElem? (l : List α) :
    (range l.length).filterMap (fun i => l[i]?) = l := by
  induction l with
  | nil => rfl
  | cons a _ ih =>
    rw [length_cons, range_succ_eq_map, filterMap_cons_some getElem?_cons_zero, filterMap_map]
    exact congrArg (a :: ·) ih

/-- The shim comes first in the table. -/
theorem descriptorOrder_eq (targets : List OutputSlice) (shim : OutputSlice) :
    descriptorOrder (targets ++ [shim]) targets.length = shim :: targets := by
  have hshift : ∀ d < targets.length,
      (targets ++ [shim])[outputIndexForFatDescriptor (d + 1) targets.length]? = targets[d]? := by
    intro d hd
    rw [outputIndexForFatDescriptor, if_neg (by omega), Nat.add_sub_cancel, getElem?_append_left hd]
  rw [descriptorOrder, range_succ_eq_map, filterMap_cons_some (by
    rw [outputIndexForFatDescriptor, if_pos rfl, getElem?_concat_length]), filterMap_map]
  congr 1
  have hall : (range targets.length).filterMap
      ((fun d => (targets ++ [shim])[outputIndexForFatDescriptor d targets.length]?) ∘ Nat.succ)
      = (range targets.length).filterMap fun d => targets[d]? :=
    filterMap_congr fun d hd => hshift d (mem_range.mp hd)
  rw [hall]
  exact filterMap_range_getElem? targets

/-! ## One slice of the output -/

/-- The content of an output slice is an accepted slice, and its description is that slice's. -/
structure Carries (heap : ℕ → Bool) (slice : Slice) (output : OutputSlice) : Prop where
  copyable : output.Copyable
  size_eq : output.size = slice.size
  size_ne_zero : slice.size ≠ 0
  cpuType_eq : output.cpuType = slice.cpuType
  cpuSubtype_eq : output.cpuSubtype = slice.cpuSubtype
  fileType_eq : output.fileType = slice.fileType
  is64Bit_eq : output.is64Bit = !slice.is32Bit
  encrypted_eq : output.encrypted = slice.encrypted
  checked : ∃ form state,
    SliceChecked heap output.content 0 slice.size form {} slice.toRecorded state ∧
      slice = sliceOf output.content 0 form slice.toRecorded slice

variable {slice : Slice} {placed : OutputSlice}

/-- A place does not change what is carried. -/
theorem Carries.of_placedAs {start : ℕ} {output : OutputSlice}
    (hplaced : PlacedAs start output placed) (h : Carries heap slice output) :
    Carries heap slice placed := by
  rw [hplaced.same]
  exact { h with }

/-- The slice at its place in the output. -/
def relocate (slice : Slice) (placed : OutputSlice) : Slice :=
  { slice with offset := placed.outputOffset, alignExponent := placed.outputAlignExponent }

/-- What the reader finds in the table for an output slice. -/
def descriptorOf (placed : OutputSlice) : Slice :=
  { cpuType := placed.cpuType, cpuSubtype := placed.cpuSubtype, offset := placed.outputOffset,
    size := placed.size, alignExponent := placed.outputAlignExponent }

/-- The reader accepts a slice at its place. -/
theorem parseSlice_of_carries {file : File} (h : Carries heap slice placed)
    (hfits : placed.outputOffset + placed.size ≤ file.length)
    (hcontent : ∀ i < placed.size, file.bytes (placed.outputOffset + i) = placed.content i) :
    parseSlice heap file placed.outputOffset placed.size (descriptorOf placed)
      = .ok (relocate slice placed) := by
  obtain ⟨form, state, hchecked, hslice⟩ := h.checked
  obtain ⟨-, -, -, -, -, hend⟩ := tableIsValid_iff.mp hchecked.table
  have hsame : ∀ i < form.headerSize + headerField placed.content 0 form 20,
      file.bytes (placed.outputOffset + i) = placed.content (0 + i) := by
    intro i hi
    rw [Nat.zero_add]
    exact hcontent i (by rw [h.size_eq]; omega)
  obtain ⟨hthere, hsliceOf⟩ := hchecked.transfer hsame
  refine (parseSlice_eq_ok hfits).mpr ⟨form, slice.toRecorded, state, ?_, ?_⟩
  · rw [h.size_eq]
    exact hthere
  · rw [hsliceOf, relocate, hslice]
    simp only [sliceOf, descriptorOf, h.size_eq]

/-- The numbers in the table fit their fields. -/
theorem Carries.words_lt (h : Carries heap slice placed)
    (hend : placed.outputOffset + placed.size ≤ uint32Max)
    (halign : placed.outputAlignExponent ≤ 30) :
    ∀ word ∈ descriptorWords placed, word < 2 ^ 32 := by
  obtain ⟨form, state, -, hslice⟩ := h.checked
  have htype : slice.cpuType < 2 ^ 32 := by
    rw [hslice]
    exact convertUInt32_lt (word_lt _ _) _
  have hsubtype : slice.cpuSubtype < 2 ^ 32 := by
    rw [hslice]
    exact convertUInt32_lt (word_lt _ _) _
  simp only [descriptorWords, forall_mem_cons, h.cpuType_eq, h.cpuSubtype_eq, uint32Max] at *
  exact ⟨htype, hsubtype, by omega, by omega, by omega, by simp⟩

/-! ## The whole table -/

/-- Slices that share no byte. -/
def OutputSlice.Apart (s t : OutputSlice) : Prop :=
  s.outputOffset + s.size ≤ t.outputOffset ∨ t.outputOffset + t.size ≤ s.outputOffset

/-- The words of the header that describes these slices. -/
def tableWords (placed : List OutputSlice) : List ℕ :=
  fatMagic :: placed.length :: placed.flatMap descriptorWords

theorem length_tableWords (placed : List OutputSlice) :
    (tableWords placed).length = 2 + 5 * placed.length := by
  simp [tableWords, length_flatMap, descriptorWords]
  omega

/-- The words of descriptor `i`. -/
theorem getD_tableWords {placed : List OutputSlice} {f : ℕ} (hi : i < placed.length) (hf : f < 5) :
    (tableWords placed).getD (5 * i + f + 2) 0 = (descriptorWords placed[i]).getD f 0 := by
  rw [tableWords, getD_cons_succ, getD_cons_succ, getD_eq_getElem?_getD,
    getElem?_flatMap_of_length (f := descriptorWords) (n := 5) (fun _ => rfl) hi hf,
    getD_eq_getElem?_getD]

/-- A file that was written for these slices, in the order of the table. -/
structure WrittenFor (heap : ℕ → Bool) (file : File) (pairs : List (Slice × OutputSlice)) :
    Prop where
  count_pos : 0 < pairs.length
  count_le : pairs.length ≤ maxSlices
  length_le : file.length ≤ uint32Max
  carries : ∀ p ∈ pairs, Carries heap p.1 p.2
  behind_table : ∀ p ∈ pairs, outputHeaderSize pairs.length ≤ p.2.outputOffset
  in_file : ∀ p ∈ pairs, p.2.outputOffset + p.2.size ≤ file.length
  align_le : ∀ p ∈ pairs, p.2.outputAlignExponent ≤ 30
  aligned : ∀ p ∈ pairs, 2 ^ p.2.outputAlignExponent ∣ p.2.outputOffset
  apart : pairs.Pairwise fun p q => p.2.Apart q.2
  distinct : pairs.Pairwise fun p q => p.1.Distinct q.1
  content : ∀ p ∈ pairs, ∀ i < p.2.size, file.bytes (p.2.outputOffset + i) = p.2.content i
  header : ∀ i < outputHeaderSize pairs.length,
    file.bytes i = ((tableWords (pairs.map Prod.snd)).flatMap Bytes.encodeBig).getD i 0

/-- The form of the table that the injector writes. -/
abbrev outputForm : FatForm := ⟨false, true⟩

section

variable {heap : ℕ → Bool} {file : File} {pairs : List (Slice × OutputSlice)}

/-- The table lies in the file. -/
theorem WrittenFor.header_le (h : WrittenFor heap file pairs) :
    outputHeaderSize pairs.length ≤ file.length := by
  have hfirst := getElem_mem h.count_pos
  have := h.behind_table _ hfirst
  have := h.in_file _ hfirst
  omega

/-- Each word of the header reads back. -/
theorem WrittenFor.word_eq (h : WrittenFor heap file pairs) (hj : j < 2 + 5 * pairs.length) :
    swapInt32 (file.bytes.word (4 * j)) = (tableWords (pairs.map Prod.snd)).getD j 0 := by
  have hlength : (tableWords (pairs.map Prod.snd)).length = 2 + 5 * pairs.length := by
    rw [length_tableWords, length_map]
  have hsmall : ∀ word ∈ tableWords (pairs.map Prod.snd), word < 2 ^ 32 := by
    rw [tableWords, forall_mem_cons, forall_mem_cons, length_map]
    refine ⟨by decide, Nat.lt_of_le_of_lt h.count_le (by decide), ?_⟩
    intro word hword
    obtain ⟨placed, hplaced, hmem⟩ := mem_flatMap.mp hword
    obtain ⟨p, hp, rfl⟩ := mem_map.mp hplaced
    have hend := h.in_file p hp
    have hfile := h.length_le
    exact (h.carries p hp).words_lt (by omega) (h.align_le p hp) word hmem
  have hj' : j < (tableWords (pairs.map Prod.snd)).length := by omega
  rw [getD_eq_getElem _ _ hj']
  refine swapInt32_word_of_encodeBig hj' (hsmall _ (getElem_mem hj')) fun i hi => ?_
  refine h.header i (Nat.lt_of_lt_of_le hi (Nat.le_of_eq ?_))
  rw [length_flatMap_encodeBig, hlength, outputHeaderSize]
  omega

/-- **A descriptor reads back.** -/
theorem readDescriptor_eq (h : WrittenFor heap file pairs) (hi : i < pairs.length) :
    readDescriptor file outputForm i = .ok (descriptorOf pairs[i].2) := by
  have hheader := h.header_le
  have hcount := h.count_le
  have hplace : (8 + i * outputForm.descriptorSize) % 2 ^ 64 = 8 + 20 * i := by
    show (8 + i * 20) % 2 ^ 64 = 8 + 20 * i
    simp only [maxSlices] at hcount
    omega
  have hread : readAt file outputForm.descriptorSize (8 + 20 * i)
      = .ok (file.bytes.window (8 + 20 * i) 20) := by
    refine readAt_of_fits ?_
    show 8 + 20 * i + 20 ≤ file.length
    unfold outputHeaderSize at hheader
    omega
  have hfield : ∀ f < 5, swapInt32 ((file.bytes.window (8 + 20 * i) 20).word (4 * f))
      = (descriptorWords pairs[i].2).getD f 0 := by
    intro f hf
    have hi' : i < (pairs.map Prod.snd).length := by rwa [length_map]
    have hplaced := getD_tableWords hi' hf
    rw [getElem_map] at hplaced
    rw [word_window (by omega), ← hplaced, ← h.word_eq (by omega)]
    congr 2
    omega
  rw [readDescriptor]
  simp only [hplace, hread, mapError_ok, ok_bind, Bool.false_eq_true, if_false,
    convertUInt32, if_true]
  have h0 := hfield 0 (by omega)
  have h1 := hfield 1 (by omega)
  have h2 := hfield 2 (by omega)
  have h3 := hfield 3 (by omega)
  have h4 := hfield 4 (by omega)
  rw [h0, h1, h2, h3, h4]
  rfl

/-- The loop over the table finds the slices it finds one by one. -/
theorem parseArchitectures_complete {form : FatForm} {tableSize : ℕ} {slices : List Slice}
    (h : ∀ i (hi : i < slices.length),
      parseArchitecture heap file form tableSize i (slices.take i) = .ok slices[i]) :
    parseArchitectures heap file form tableSize slices.length [] = .ok slices := by
  have hfrom : ∀ remaining k, k + remaining = slices.length →
      parseArchitectures heap file form tableSize remaining (slices.take k) = .ok slices := by
    intro remaining
    induction remaining with
    | zero =>
      intro k hk
      rw [parseArchitectures, take_of_length_le (by omega)]
    | succ _ ih =>
      intro k hk
      have hlength : (slices.take k).length = k := by
        rw [length_take]
        omega
      have hk' : k < slices.length := by omega
      rw [parseArchitectures, hlength, h k hk', ok_bind, take_append_getElem hk']
      exact ih (k + 1) (by omega)
  exact hfrom slices.length 0 (Nat.zero_add _)

/-- The reader accepts each slice of the table. -/
theorem parseArchitecture_eq (h : WrittenFor heap file pairs) (hi : i < pairs.length) :
    parseArchitecture heap file outputForm (outputForm.tableSize pairs.length) i
        ((pairs.map fun p => relocate p.1 p.2).take i)
      = .ok (relocate pairs[i].1 pairs[i].2) := by
  have hmem := getElem_mem hi
  have hcarries := h.carries _ hmem
  have hfits := h.in_file _ hmem
  have htable : outputForm.tableSize pairs.length = outputHeaderSize pairs.length := by
    have hcount := h.count_le
    show (8 + pairs.length * 20) % 2 ^ 64 = 8 + pairs.length * 20
    simp only [maxSlices] at hcount
    omega
  have hdescriptor : checkDescriptor file i (outputForm.tableSize pairs.length)
      (descriptorOf pairs[i].2) = .ok () := by
    have hsize := hcarries.size_ne_zero
    rw [← hcarries.size_eq] at hsize
    have haligned := Nat.mod_eq_zero_of_dvd (h.aligned _ hmem)
    rw [checkDescriptor, ensure_bind, ensure_eq_ok]
    · simp only [descriptorOf, haligned, beq_self_eq_true]
    · simp only [descriptorOf, htable, Bool.not_eq_true', Bool.or_eq_false_iff, beq_eq_false_iff_ne,
        ne_eq, decide_eq_false_iff_not, Nat.not_lt, gt_iff_lt, Bool.not_eq_false', rangeFits_iff]
      exact ⟨⟨⟨hsize, h.align_le _ hmem⟩, h.behind_table _ hmem⟩, hfits⟩
  have hprevious : checkPrevious (descriptorOf pairs[i].2)
      ((pairs.map fun p => relocate p.1 p.2).take i) = .ok () := by
    have hplace : (descriptorOf pairs[i].2).offset + (descriptorOf pairs[i].2).size
        ≤ file.length := hfits
    refine (checkPrevious_eq_ok hplace fun other hother => ?_).mpr fun other hother => ?_
    · obtain ⟨p, hp, rfl⟩ := mem_map.mp (mem_of_mem_take hother)
      have hin := h.in_file p hp
      rwa [(h.carries p hp).size_eq] at hin
    · rw [← map_take] at hother
      obtain ⟨p, hp, rfl⟩ := mem_map.mp hother
      obtain ⟨j, hj, rfl⟩ := getElem_of_mem hp
      rw [length_take] at hj
      have hji : j < i := by omega
      rw [getElem_take]
      have hapart := pairwise_iff_getElem.mp h.apart j i (by omega) hi hji
      have hdistinct := pairwise_iff_getElem.mp h.distinct j i (by omega) hi hji
      have hother := h.carries _ (getElem_mem (show j < pairs.length by omega))
      constructor
      · simp only [Slice.Distinct, descriptorOf, relocate, hcarries.cpuType_eq,
          hcarries.cpuSubtype_eq] at hdistinct ⊢
        exact hdistinct.symm
      · simp only [Slice.Disjoint, OutputSlice.Apart, descriptorOf, relocate, hother.size_eq]
          at hapart ⊢
        exact hapart.symm
  have hparse := parseSlice_of_carries hcarries hfits (h.content _ hmem)
  rw [parseArchitecture, readDescriptor_eq h hi, ok_bind, hdescriptor, ok_bind,
    hprevious, ok_bind]
  simp only [descriptorOf] at hparse ⊢
  rw [hparse, ok_bind, ensure_bind]
  · simp only [relocate, hcarries.size_eq]
    rfl
  · simp only [relocate, hcarries.cpuType_eq, hcarries.cpuSubtype_eq, beq_self_eq_true,
      Bool.and_self]

/-- The image that the reader returns for a written file. -/
def writtenImage (file : File) (pairs : List (Slice × OutputSlice)) : Image where
  slices := pairs.map fun p => relocate p.1 p.2
  fileSize := file.length
  isFat := true
  isFat64 := false
  isFatByteSwapped := true

/-- **The reader accepts the file.** -/
theorem parseImage_eq (h : WrittenFor heap file pairs) :
    parseImage heap file = .ok (writtenImage file pairs) := by
  have hheader := h.header_le
  unfold outputHeaderSize at hheader
  have hcount := h.count_le
  have hpos := h.count_pos
  have hmagic : file.bytes.word 0 = fatCigam := by
    have hword := h.word_eq (show 0 < 2 + 5 * pairs.length by omega)
    have hswap := congrArg swapInt32 hword
    rw [swapInt32_swapInt32 (word_lt _ _)] at hswap
    exact hswap.trans (show swapInt32 fatMagic = fatCigam by decide)
  have hlength : swapInt32 (file.bytes.word 4) = pairs.length := by
    have hword := h.word_eq (show 1 < 2 + 5 * pairs.length by omega)
    rw [tableWords, getD_cons_succ, getD_cons_zero, length_map] at hword
    exact hword
  have hslices := @parseArchitectures_complete heap file _ _
    (pairs.map fun p => relocate p.1 p.2) fun i hi => by
      rw [length_map] at hi
      rw [parseArchitecture_eq h hi, getElem_map]
  rw [length_map] at hslices
  have hfat : parseFat heap file fatCigam = .ok (writtenImage file pairs) := by
    rw [parseFat, ensure_bind (by simp only [decide_eq_true_eq]; omega),
      readAt_of_fits (by omega), mapError_ok, ok_bind]
    have hform : fatForm fatCigam = outputForm := rfl
    simp only [hform, convertUInt32, if_true, word_window (show 4 + 4 ≤ 8 by omega),
      Nat.zero_add, hlength]
    rw [ensure_bind, ensure_bind, hslices]
    · rfl
    · show decide (pairs.length ≤ (file.length - 8) / 20) = true
      rw [decide_eq_true_eq]
      omega
    · simp only [Bool.not_eq_true', Bool.or_eq_false_iff, beq_eq_false_iff_ne, ne_eq,
        decide_eq_false_iff_not, Nat.not_lt, gt_iff_lt]
      omega
  rw [parseImage, ensure_bind (by rw [bne_iff_ne]; omega), readAt_of_fits (by omega),
    mapError_ok, ok_bind, word_window (show 0 + 4 ≤ 4 by omega), hmagic,
    if_pos (by decide), hfat]

/-! ## The injector's own verification -/

/-- The verification passes for each slice of the table. -/
theorem verifySlice_eq (h : WrittenFor heap file pairs) {p : Slice × OutputSlice} (hp : p ∈ pairs) :
    verifySlice file p.2 (relocate p.1 p.2) = .ok () := by
  have hcarries := h.carries p hp
  have hinside := h.in_file p hp
  have hlength := file.length_lt
  rw [verifySlice, ensure_bind, ensure_eq_ok]
  · refine (matchesFD_iff hcarries.copyable.1 hcarries.copyable.2 (by decide) (by omega)).mpr ?_
    exact fun i _ hi => ⟨by omega, h.content p hp i hi⟩
  · simp [relocate, hcarries.cpuType_eq, hcarries.cpuSubtype_eq, hcarries.size_eq,
      hcarries.fileType_eq, hcarries.is64Bit_eq, hcarries.encrypted_eq]

theorem verifySlices_eq (h : ∀ p ∈ pairs, verifySlice file p.2 (relocate p.1 p.2) = .ok ()) :
    verifySlices file (pairs.map Prod.snd) (pairs.map fun p => relocate p.1 p.2) = .ok () := by
  induction pairs with
  | nil => rfl
  | cons _ _ ih =>
    rw [forall_mem_cons] at h
    rw [map_cons, map_cons, verifySlices, h.1, ok_bind]
    exact ih h.2

end

end LiveExec32.MachO
