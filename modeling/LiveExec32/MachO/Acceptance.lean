import LiveExec32.MachO.Slices

/-! # What the Mach-O reader accepts

The injector writes with the numbers the reader returns, so an image that was accepted has to be
sound: `Accepted` collects what holds of it, and `imageParseFD_sound` proves it of every file. -/

namespace LiveExec32.MachO

open List Except

/-! ## Statement -/

/-- The size that the load command at `position` in a slice gives itself. -/
def commandSizeAt (file : File) (slice : Slice) (position : ℕ) : ℕ :=
  convertUInt32 (file.bytes.word (slice.offset + position + 4)) slice.isByteSwapped

/-- Exactly `count` load commands, one behind the other, from `position` to `stop` in the slice. -/
def CommandsTile (file : File) (slice : Slice) (stop : ℕ) : (count position : ℕ) → Prop
  | 0, position => position = stop
  | count + 1, position =>
    8 ≤ commandSizeAt file slice position ∧
      position + commandSizeAt file slice position ≤ stop ∧
      CommandsTile file slice stop count (position + commandSizeAt file slice position)

/-- The first byte behind the FAT header and table; a thin file has neither. -/
def Image.tableSize (image : Image) : ℕ :=
  if image.isFat then 8 + image.count * (if image.isFat64 then 32 else 20) else 0

/-- What holds of each slice of an accepted image. -/
structure SliceAccepted (file : File) (tableSize : ℕ) (slice : Slice) : Prop where
  behind_table : tableSize ≤ slice.offset
  in_file : slice.offset + slice.size ≤ file.length
  aligned : 2 ^ slice.alignExponent ∣ slice.offset
  commands_in_slice : slice.headerSize + slice.loadCommandBytes ≤ slice.size
  commands_tile : CommandsTile file slice (slice.headerSize + slice.loadCommandBytes)
    slice.loadCommandCount slice.headerSize
  codeSignature : RangeInside slice.codeSignatureOffset slice.codeSignatureSize slice.size
  encryption : RangeInside slice.encryptionOffset slice.encryptionSize slice.size
  linkedit : RangeInside slice.linkeditFileOffset slice.linkeditFileSize slice.size

/-- Two slices share no byte. -/
def Slice.Disjoint (slice other : Slice) : Prop :=
  slice.offset + slice.size ≤ other.offset ∨ other.offset + other.size ≤ slice.offset

/-- Two slices are for different processors. -/
def Slice.Distinct (slice other : Slice) : Prop :=
  (slice.cpuType, slice.cpuSubtype) ≠ (other.cpuType, other.cpuSubtype)

/-- What holds of an accepted image. -/
structure Accepted (file : File) (image : Image) : Prop where
  one_le_count : 1 ≤ image.count
  count_le : image.count ≤ maxSlices
  slices : ∀ slice ∈ image.slices, SliceAccepted file image.tableSize slice
  disjoint : image.slices.Pairwise Slice.Disjoint
  distinct : image.slices.Pairwise Slice.Distinct

/-! ## Slices -/

variable {form : FatForm} {file : File} {previous : List Slice} {descriptor : Slice}
  {heap : ℕ → Bool} {slice : Slice}

/-- The commands of the table are those of the slice. -/
theorem commandsTile_of_tiles {sliceSize : ℕ} {form : HeaderForm}
    (hswap : slice.isByteSwapped = form.swap) {count relativeOffset : ℕ}
    (h : (commandTable file.bytes slice.offset sliceSize form).Tiles count relativeOffset) :
    CommandsTile file slice
      (form.headerSize + headerField file.bytes slice.offset form 20) count
      (form.headerSize + relativeOffset) := by
  induction count generalizing relativeOffset with
  | zero => exact congrArg (form.headerSize + ·) h
  | succ _ ih =>
    obtain ⟨hsize, hfits, hrest⟩ := h
    have hsame : commandSizeAt file slice (form.headerSize + relativeOffset)
        = (commandTable file.bytes slice.offset sliceSize form).commandSize relativeOffset := by
      have hfits' : relativeOffset + 4 + 4 ≤ headerField file.bytes slice.offset form 20 := by
        simp only [commandTable] at hfits hsize ⊢
        omega
      rw [commandSizeAt, CommandTable.commandSize, hswap]
      simp only [commandTable]
      rw [Bytes.word_window hfits']
      simp only [Nat.add_assoc]
    rw [CommandsTile, hsame]
    refine ⟨hsize, ?_, ?_⟩
    · simp only [commandTable] at hfits ⊢
      omega
    · rw [Nat.add_assoc]
      exact ih hrest

variable {tableSize : ℕ}

/-- A slice that the reader returned, at an offset that was checked before. -/
theorem sliceAccepted_of_sliceParsed (htable : tableSize ≤ slice.offset)
    (haligned : 2 ^ slice.alignExponent ∣ slice.offset) (h : SliceParsed heap file slice) :
    SliceAccepted file tableSize slice := by
  obtain ⟨form, state, hchecked, hslice⟩ := h.checked
  have hinside := h.inSlice
  obtain ⟨-, -, hbytes, -, -, hend⟩ := tableIsValid_iff.mp hchecked.table
  have htiles := CommandTable.parse_tiles
    (t := commandTable file.bytes slice.offset slice.size form)
    (Nat.lt_of_le_of_lt hbytes (by decide)) hchecked.commands
  have hheader : slice.headerSize = form.headerSize := by rw [hslice]; rfl
  have hcommandBytes : slice.loadCommandBytes = headerField file.bytes slice.offset form 20 := by
    rw [hslice]; rfl
  have hcount : slice.loadCommandCount = headerField file.bytes slice.offset form 16 := by
    rw [hslice]; rfl
  have hswap : slice.isByteSwapped = form.swap := by rw [hslice]; rfl
  exact
    { behind_table := htable
      in_file := h.in_file
      aligned := haligned
      commands_in_slice := by rw [hheader, hcommandBytes]; exact hend
      commands_tile := by
        rw [hheader, hcommandBytes, hcount]
        exact commandsTile_of_tiles hswap htiles
      codeSignature := hinside.codeSignature
      encryption := hinside.encryption
      linkedit := hinside.linkedit }

/-! ## The table of a FAT file -/

variable {index : ℕ} {u : Unit}

theorem checkDescriptor_eq_ok (h : checkDescriptor file index tableSize descriptor = .ok u) :
    descriptor.size ≠ 0 ∧ descriptor.alignExponent ≤ 30 ∧ tableSize ≤ descriptor.offset ∧
      descriptor.offset + descriptor.size ≤ file.length ∧
      2 ^ descriptor.alignExponent ∣ descriptor.offset := by
  obtain ⟨hrange, haligned⟩ := ensure_bind_eq_ok.mp h
  rw [ensure_eq_ok, beq_iff_eq] at haligned
  simp only [Bool.not_eq_true', Bool.or_eq_false_iff, beq_eq_false_iff_ne, ne_eq,
    decide_eq_false_iff_not, Nat.not_lt, gt_iff_lt, Bool.not_eq_false', rangeFits_iff] at hrange
  exact ⟨hrange.1.1.1, hrange.1.1.2, hrange.1.2, hrange.2, Nat.dvd_of_mod_eq_zero haligned⟩

/-- Slices inside the file pass the check against each other just if they are apart. -/
theorem checkAgainst_eq_ok {other : Slice}
    (hdescriptor : descriptor.offset + descriptor.size ≤ file.length)
    (hother : other.offset + other.size ≤ file.length) :
    checkAgainst descriptor other = .ok u
      ↔ descriptor.Distinct other ∧ descriptor.Disjoint other := by
  have hlength := file.length_lt
  rw [checkAgainst, ensure_bind_eq_ok, ensure_eq_ok, Nat.mod_eq_of_lt (by omega),
    Nat.mod_eq_of_lt (by omega)]
  refine and_congr ?_ ?_
  · simp only [Slice.Distinct, Bool.not_eq_true', Bool.and_eq_false_iff, beq_eq_false_iff_ne, ne_eq,
      Prod.mk.injEq, not_and_or]
  · simp only [Slice.Disjoint, Bool.not_eq_true', Bool.and_eq_false_iff, decide_eq_false_iff_not,
      Nat.not_lt]
    exact or_comm

theorem checkPrevious_eq_ok (hdescriptor : descriptor.offset + descriptor.size ≤ file.length)
    (hprevious : ∀ other ∈ previous, other.offset + other.size ≤ file.length) :
    checkPrevious descriptor previous = .ok u ↔
      ∀ other ∈ previous, descriptor.Distinct other ∧ descriptor.Disjoint other := by
  induction previous with
  | nil => simp [checkPrevious]
  | cons _ _ ih =>
    rw [forall_mem_cons] at hprevious
    rw [checkPrevious, bind_eq_ok, forall_mem_cons, ← ih hprevious.2,
      ← checkAgainst_eq_ok hdescriptor hprevious.1 (u := ()), exists_and_right]
    exact and_congr_left fun _ => ⟨fun ⟨_, h⟩ => h, fun h => ⟨(), h⟩⟩

/-- The descriptor that was read records nothing yet. -/
theorem toRecorded_of_readDescriptor (h : readDescriptor file form index = .ok descriptor) :
    descriptor.toRecorded = {} := by
  obtain ⟨architecture, -, h⟩ := bind_eq_ok.mp h
  split at h
  · obtain ⟨-, h⟩ := ensure_bind_eq_ok.mp h
    cases h
    rfl
  · cases h
    rfl

/-- What the loop over the table knows about the slices it has parsed. -/
structure TableInv (heap : ℕ → Bool) (file : File) (tableSize : ℕ)
    (slices : List Slice) : Prop where
  parsed : ∀ slice ∈ slices, SliceParsed heap file slice
  placed : ∀ slice ∈ slices, tableSize ≤ slice.offset ∧ 2 ^ slice.alignExponent ∣ slice.offset
  disjoint : slices.Pairwise Slice.Disjoint
  distinct : slices.Pairwise Slice.Distinct

/-- One round adds a slice that is apart from the others. -/
theorem tableInv_parseArchitecture (hinv : TableInv heap file tableSize previous)
    (h : parseArchitecture heap file form tableSize index previous = .ok slice) :
    TableInv heap file tableSize (previous ++ [slice]) := by
  obtain ⟨descriptor, hread, h⟩ := bind_eq_ok.mp h
  obtain ⟨u, hcheck, h⟩ := bind_eq_ok.mp h
  obtain ⟨u', hprevious, h⟩ := bind_eq_ok.mp h
  obtain ⟨parsed, hparsed, h⟩ := bind_eq_ok.mp h
  obtain ⟨hmatches, h⟩ := ensure_bind_eq_ok.mp h
  cases h
  obtain ⟨hsize, halign, htable, hfits, haligned⟩ := checkDescriptor_eq_ok hcheck
  simp only [Bool.and_eq_true, beq_iff_eq] at hmatches
  have hapart := (checkPrevious_eq_ok hfits fun other hother =>
    (hinv.parsed other hother).in_file).mp hprevious
  obtain ⟨hresult, hoffset, hsizes, haligns⟩ := sliceParsed_of_parseSlice hfits hsize halign
    (toRecorded_of_readDescriptor hread) hparsed
  -- the last assignments of the loop change nothing
  rw [← hoffset, ← hsizes, ← haligns]
  refine ⟨?_, ?_, ?_, ?_⟩
  · rw [forall_mem_append, forall_mem_singleton]
    exact ⟨hinv.parsed, hresult⟩
  · rw [forall_mem_append, forall_mem_singleton]
    exact ⟨hinv.placed, by rwa [hoffset], by rwa [hoffset, haligns]⟩
  · refine pairwise_append.mpr ⟨hinv.disjoint, pairwise_singleton _ _, ?_⟩
    intro other hother slice hslice
    obtain rfl := mem_singleton.mp hslice
    have := (hapart other hother).2
    simp only [Slice.Disjoint, hoffset, hsizes] at this ⊢
    exact this.symm
  · refine pairwise_append.mpr ⟨hinv.distinct, pairwise_singleton _ _, ?_⟩
    intro other hother slice hslice
    obtain rfl := mem_singleton.mp hslice
    have := (hapart other hother).1
    simp only [Slice.Distinct, hmatches] at this ⊢
    exact this.symm

/-- The whole table. -/
theorem tableInv_parseArchitectures {remaining : ℕ} {slices : List Slice}
    (hinv : TableInv heap file tableSize previous)
    (h : parseArchitectures heap file form tableSize remaining previous = .ok slices) :
    TableInv heap file tableSize slices ∧ slices.length = previous.length + remaining := by
  induction remaining generalizing previous with
  | zero =>
    cases h
    exact ⟨hinv, rfl⟩
  | succ _ ih =>
    obtain ⟨slice, hslice, hrest⟩ := bind_eq_ok.mp h
    obtain ⟨hall, hlength⟩ := ih (tableInv_parseArchitecture hinv hslice) hrest
    refine ⟨hall, ?_⟩
    rw [hlength, length_append, length_singleton]
    omega

variable {image : Image}

theorem accepted_of_parseFat {magic : ℕ} (h : parseFat heap file magic = .ok image) :
    Accepted file image ∧ ∀ slice ∈ image.slices, SliceParsed heap file slice := by
  obtain ⟨-, h⟩ := ensure_bind_eq_ok.mp h
  obtain ⟨header, -, h⟩ := bind_eq_ok.mp h
  obtain ⟨hcount, h⟩ := ensure_bind_eq_ok.mp h
  obtain ⟨-, h⟩ := ensure_bind_eq_ok.mp h
  obtain ⟨slices, hslices, h⟩ := bind_eq_ok.mp h
  cases h
  simp only [Bool.not_eq_true', Bool.or_eq_false_iff, beq_eq_false_iff_ne, ne_eq,
    decide_eq_false_iff_not, Nat.not_lt, gt_iff_lt] at hcount
  obtain ⟨hinv, hlength⟩ :=
    tableInv_parseArchitectures ⟨by simp, by simp, List.Pairwise.nil, List.Pairwise.nil⟩ hslices
  rw [length_nil, Nat.zero_add] at hlength
  have htable : Image.tableSize ⟨slices, file.length, true, (fatForm magic).isFat64,
      (fatForm magic).swap⟩ = (fatForm magic).tableSize slices.length := by
    have hsize : (fatForm magic).descriptorSize ≤ 32 := by
      unfold FatForm.descriptorSize
      split <;> omega
    have hbound : slices.length * (fatForm magic).descriptorSize ≤ 5 * 32 :=
      Nat.mul_le_mul (hlength ▸ hcount.2) hsize
    rw [FatForm.tableSize, Nat.mod_eq_of_lt (by omega)]
    rfl
  refine ⟨⟨?_, ?_, ?_, hinv.disjoint, hinv.distinct⟩, hinv.parsed⟩
  · simp only [Image.count]
    omega
  · simp only [Image.count]
    omega
  · rw [htable, hlength]
    intro slice hslice
    exact sliceAccepted_of_sliceParsed (hinv.placed slice hslice).1 (hinv.placed slice hslice).2
      (hinv.parsed slice hslice)

theorem accepted_of_parseImage (h : parseImage heap file = .ok image) :
    Accepted file image ∧ ∀ slice ∈ image.slices, SliceParsed heap file slice := by
  obtain ⟨hlength, h⟩ := ensure_bind_eq_ok.mp h
  rw [bne_iff_ne] at hlength
  obtain ⟨magic, -, h⟩ := bind_eq_ok.mp h
  split at h
  · exact accepted_of_parseFat h
  · obtain ⟨slice, hslice, h⟩ := bind_eq_ok.mp h
    cases h
    obtain ⟨hparsed, hoffset, -, -⟩ := @sliceParsed_of_parseSlice file heap slice
      { offset := 0, size := file.length, alignExponent := thinAlignExponent }
      (Nat.le_of_eq (Nat.zero_add _)) hlength (show thinAlignExponent ≤ 30 by decide) rfl hslice
    have haccepted : SliceAccepted file 0 slice := by
      refine sliceAccepted_of_sliceParsed (Nat.zero_le _) ?_ hparsed
      rw [hoffset]
      exact Nat.dvd_zero _
    refine ⟨⟨Nat.le_refl 1, Nat.succ_le_succ (Nat.zero_le 4), ?_, pairwise_singleton _ _,
      pairwise_singleton _ _⟩, ?_⟩
    · rw [forall_mem_singleton]
      exact haccepted
    · rw [forall_mem_singleton]
      exact hparsed

/-! ## Result -/

/-- **An image that the reader accepts is sound, and a failed read leaves an empty image.** -/
theorem imageParseFD_sound (heap : ℕ → Bool) (fd : ℤ) (file : Except String File) (image : Image)
    (hfd : 0 ≤ fd) :
    ((imageParseFD heap fd file image).success = true →
      ∃ f, file = .ok f ∧ Accepted f (imageParseFD heap fd file image).image) ∧
    ((imageParseFD heap fd file image).success = false →
      (imageParseFD heap fd file image).image = {}) := by
  rw [imageParseFD, if_neg (by omega)]
  cases file with
  | error => exact ⟨fun h => absurd h Bool.false_ne_true, fun _ => rfl⟩
  | ok f =>
    simp only [mapError_ok]
    cases hparse : parseImage heap f with
    | error => exact ⟨fun h => absurd h Bool.false_ne_true, fun _ => rfl⟩
    | ok =>
      exact ⟨fun _ => ⟨f, rfl, (accepted_of_parseImage hparse).1⟩,
        fun h => absurd h Bool.noConfusion⟩

theorem smallestFile_length_lt : 36 < 2 ^ 63 := by decide

/-- A thin ARM executable with a single load command of eight bytes. -/
def smallestFile : File :=
  ⟨fun i => (Bytes.encodeWords [0xFEEDFACE, 12, 9, 2, 1, 8, 0, 4, 8]).getD i 0, 36,
    smallestFile_length_lt⟩

theorem imageParseFD_sound_smallest :
    (imageParseFD (fun _ => true) 3 (.ok smallestFile) {}).success = true ∧
      ∃ f, ok smallestFile = ok (ε := String) f ∧
        Accepted f (imageParseFD (fun _ => true) 3 (.ok smallestFile) {}).image := by
  have hsuccess : (imageParseFD (fun _ => true) 3 (.ok smallestFile) {}).success := by
    decide
  exact ⟨hsuccess, (imageParseFD_sound (fun _ => true) 3 (.ok smallestFile) {} (by decide)).1
    hsuccess⟩

end LiveExec32.MachO
