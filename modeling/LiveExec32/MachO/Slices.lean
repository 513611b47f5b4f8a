import LiveExec32.MachO.Image

/-! # What a parsed slice is

`parseSlice_eq_ok` says what the reader found when it accepted a slice, in terms of the bytes of the
file. The rest of the module follows the loop over the load commands: the commands tile their table
(`parse_tiles`), and what they record lies in the slice (`parse_recorded`). -/

namespace LiveExec32.MachO

open Option Except

/-! ## Ranges and reads -/

variable {offset size containerSize : ℕ}

theorem rangeFits_iff : rangeFits offset size containerSize ↔ offset + size ≤ containerSize := by
  simp only [rangeFits, Bool.and_eq_true, decide_eq_true_eq]
  omega

variable {t : CommandTable} {file : File} {form : HeaderForm} {relativeOffset : ℕ} {heap : ℕ → Bool}

/-- A range inside the file can be read. -/
theorem readAt_of_fits (hfits : offset + size ≤ file.length) :
    readAt file size offset = .ok (file.bytes.window offset size) := by
  have hlength := file.length_lt
  unfold readAt
  rw [if_neg (by simp only [int64Max]; omega), if_neg (by omega)]

theorem convertUInt32_lt {value : ℕ} (h : value < 2 ^ 32) (swap : Bool) :
    convertUInt32 value swap < 2 ^ 32 := by
  cases swap with
  | false => exact h
  | true => exact swapInt32_lt value

theorem LoadCommand.uint32_lt (c : LoadCommand) (field : ℕ) : c.uint32 field < 2 ^ 32 :=
  convertUInt32_lt (c.bytes.word_lt field) c.swap

/-! ## The parts of a slice -/

/-- A field of the Mach-O header at `sliceOffset`. -/
def headerField (bytes : Bytes) (sliceOffset : ℕ) (form : HeaderForm) (offset : ℕ) : ℕ :=
  convertUInt32 (bytes.word (sliceOffset + offset)) form.swap

/-- The load commands behind the header at `sliceOffset`. -/
def commandTable (bytes : Bytes) (sliceOffset sliceSize : ℕ) (form : HeaderForm) : CommandTable :=
  let commandBytes := headerField bytes sliceOffset form 20
  ⟨form, bytes.window (sliceOffset + form.headerSize) commandBytes, commandBytes, sliceSize⟩

/-- The slice that the reader returns for these bytes. -/
def sliceOf (bytes : Bytes) (sliceOffset : ℕ) (form : HeaderForm) (recorded : Recorded)
    (slice : Slice) : Slice where
  toRecorded := recorded
  cpuType := headerField bytes sliceOffset form 4
  cpuSubtype := headerField bytes sliceOffset form 8
  fileType := headerField bytes sliceOffset form 12
  offset := slice.offset
  size := slice.size
  alignExponent := slice.alignExponent
  is32Bit := form.is32Bit
  isByteSwapped := form.swap
  headerSize := form.headerSize
  loadCommandCount := headerField bytes sliceOffset form 16
  loadCommandBytes := headerField bytes sliceOffset form 20

/-- What the reader has checked about the bytes of a slice when it accepts them. -/
structure SliceChecked (heap : ℕ → Bool) (bytes : Bytes) (sliceOffset sliceSize : ℕ)
    (form : HeaderForm) (before recorded : Recorded) (state : LoadCommandState) : Prop where
  four_le : 4 ≤ sliceSize
  form_eq : headerForm (bytes.word sliceOffset) = some form
  header_le : form.headerSize ≤ sliceSize
  width : (cpuTypeUses64BitHeader (headerField bytes sliceOffset form 4) != form.is32Bit) = true
  table : tableIsValid form (headerField bytes sliceOffset form 16)
    (headerField bytes sliceOffset form 20) sliceSize = true
  buffer : heap (headerField bytes sliceOffset form 20) = true
  commands : (commandTable bytes sliceOffset sliceSize form).parse
    (headerField bytes sliceOffset form 16) 0 0 (before, {})
      = .ok (headerField bytes sliceOffset form 20, recorded, state)
  checked : checkRecorded recorded state = .ok ()

theorem headerForm_headerSize {magic : ℕ} (h : headerForm magic = some form) :
    form.headerSize = 28 ∨ form.headerSize = 32 := by
  unfold headerForm at h
  split_ifs at h <;> obtain rfl := some.inj h <;> decide

theorem tableIsValid_iff {commandCount commandBytes sliceSize : ℕ} :
    tableIsValid form commandCount commandBytes sliceSize ↔
      commandCount ≠ 0 ∧ commandCount ≤ maxLoadCommands ∧ commandBytes ≤ maxLoadCommandBytes ∧
        commandCount ≤ commandBytes / 8 ∧ commandBytes % commandAlignment form.is32Bit = 0 ∧
        form.headerSize + commandBytes ≤ sliceSize := by
  simp only [tableIsValid, Bool.not_eq_true', Bool.or_eq_false_iff, decide_eq_false_iff_not,
    bne_eq_false_iff_eq, Bool.not_eq_false', rangeFits_iff, Nat.not_lt, gt_iff_lt, and_assoc, ne_eq]

/-- Inside the header, the buffer has the bytes of the file. -/
theorem convertUInt32_window (bytes : Bytes) (sliceOffset : ℕ)
    (hoffset : offset + 4 ≤ form.headerSize) :
    convertUInt32 ((bytes.window sliceOffset form.headerSize).word offset) form.swap
      = headerField bytes sliceOffset form offset := by
  rw [headerField, Bytes.word_window hoffset]

variable {slice result : Slice}

/-- The reader accepts a slice of the file just if its checks of the slice's bytes pass. -/
theorem parseSlice_eq_ok {sliceOffset sliceSize : ℕ}
    (hfits : sliceOffset + sliceSize ≤ file.length) :
    parseSlice heap file sliceOffset sliceSize slice = .ok result ↔ ∃ form recorded state,
        SliceChecked heap file.bytes sliceOffset sliceSize form slice.toRecorded recorded state ∧
          result = sliceOf file.bytes sliceOffset form recorded slice := by
  have hlength := file.length_lt
  unfold parseSlice
  rw [ensure_bind_eq_ok]
  by_cases hfour : 4 ≤ sliceSize
  swap
  · refine iff_of_false (fun h => hfour (of_decide_eq_true h.1)) ?_
    rintro ⟨form, recorded, state, hchecked, -⟩
    exact hfour hchecked.four_le
  rw [readAt_of_fits (by omega), mapError_ok, ok_bind,
    Bytes.word_window (show 0 + 4 ≤ 4 by omega), Nat.add_zero, decide_eq_true hfour, eq_self,
    true_and]
  cases hform : headerForm (file.bytes.word sliceOffset) with
  | none =>
    refine iff_of_false (by simp) ?_
    rintro ⟨form, recorded, state, hchecked, -⟩
    rw [hchecked.form_eq] at hform
    simp at hform
  | some form =>
    have hsize := headerForm_headerSize hform
    have hfield : ∀ offset ≤ 20,
        convertUInt32 ((file.bytes.window sliceOffset form.headerSize).word offset) form.swap
          = headerField file.bytes sliceOffset form offset :=
      fun offset hoffset => convertUInt32_window file.bytes sliceOffset (by omega)
    rw [ensure_bind_eq_ok]
    constructor
    · rintro ⟨hheader, h⟩
      replace hheader := of_decide_eq_true hheader
      rw [readAt_of_fits (by omega), mapError_ok, ok_bind] at h
      simp only [hfield 4 (by omega), hfield 8 (by omega), hfield 12 (by omega),
        hfield 16 (by omega), hfield 20 (by omega)] at h
      obtain ⟨hwidth, h⟩ := ensure_bind_eq_ok.mp h
      obtain ⟨htable, h⟩ := ensure_bind_eq_ok.mp h
      obtain ⟨-, -, hbytes, -, -, hend⟩ := tableIsValid_iff.mp htable
      obtain ⟨commands, hcommands, h⟩ := bind_eq_ok.mp h
      rw [readCommands, ensure_bind_eq_ok, Nat.mod_eq_of_lt (by omega),
        readAt_of_fits (by omega), mapError_ok] at hcommands
      obtain ⟨hbuffer, hcommands⟩ := hcommands
      cases hcommands
      obtain ⟨⟨relativeOffset, recorded, state⟩, hparse, h⟩ := bind_eq_ok.mp h
      obtain ⟨hsizes, h⟩ := ensure_bind_eq_ok.mp h
      obtain rfl := eq_of_beq hsizes
      obtain ⟨u, hrecorded, h⟩ := bind_eq_ok.mp h
      exact ⟨form, recorded, state,
        ⟨hfour, hform, hheader, hwidth, htable, hbuffer, hparse, hrecorded⟩,
        (ok.inj h).symm⟩
    · rintro ⟨form', recorded, state, hchecked, rfl⟩
      obtain rfl : form' = form := some.inj (hchecked.form_eq.symm.trans hform)
      have hheader := hchecked.header_le
      obtain ⟨-, -, hbytes, -, -, hend⟩ := tableIsValid_iff.mp hchecked.table
      refine ⟨decide_eq_true hheader, ?_⟩
      rw [readAt_of_fits (by omega), mapError_ok, ok_bind]
      simp only [hfield 4 (by omega), hfield 8 (by omega), hfield 12 (by omega),
        hfield 16 (by omega), hfield 20 (by omega)]
      have hcommands : readCommands heap file (headerField file.bytes sliceOffset form' 20)
          ((sliceOffset + form'.headerSize) % 2 ^ 64)
          = .ok (file.bytes.window (sliceOffset + form'.headerSize)
            (headerField file.bytes sliceOffset form' 20)) := by
        rw [readCommands, ensure_bind hchecked.buffer, Nat.mod_eq_of_lt (by omega),
          readAt_of_fits (by omega), mapError_ok]
      have hparse := hchecked.commands
      simp only [commandTable] at hparse
      rw [ensure_bind hchecked.width, ensure_bind hchecked.table, hcommands, ok_bind,
        hparse, ok_bind]
      simp only [ensure_bind (beq_self_eq_true _), hchecked.checked, ok_bind]
      rfl

/-- A slice that the reader returned for a place in the file. -/
structure SliceParsed (heap : ℕ → Bool) (file : File) (slice : Slice) : Prop where
  in_file : slice.offset + slice.size ≤ file.length
  size_ne_zero : slice.size ≠ 0
  align_le : slice.alignExponent ≤ 30
  checked : ∃ form state,
    SliceChecked heap file.bytes slice.offset slice.size form {} slice.toRecorded state ∧
      slice = sliceOf file.bytes slice.offset form slice.toRecorded slice

/-- The reader returns what it was asked for. -/
theorem sliceParsed_of_parseSlice {descriptor : Slice}
    (hfits : descriptor.offset + descriptor.size ≤ file.length) (hsize : descriptor.size ≠ 0)
    (halign : descriptor.alignExponent ≤ 30) (hempty : descriptor.toRecorded = {})
    (h : parseSlice heap file descriptor.offset descriptor.size descriptor = .ok result) :
    SliceParsed heap file result ∧ result.offset = descriptor.offset ∧
      result.size = descriptor.size ∧ result.alignExponent = descriptor.alignExponent := by
  obtain ⟨form, recorded, state, hchecked, rfl⟩ := (parseSlice_eq_ok hfits).mp h
  rw [hempty] at hchecked
  exact ⟨⟨hfits, hsize, halign, form, state, hchecked, rfl⟩, rfl, rfl, rfl⟩

/-! ## The load commands tile their table -/

variable {progress : Progress} {remaining index : ℕ}

namespace CommandTable

/-- Exactly `count` commands, one behind the other, from `relativeOffset` to the end of the table.
    -/
def Tiles (t : CommandTable) : (count relativeOffset : ℕ) → Prop
  | 0, relativeOffset => relativeOffset = t.commandBytes
  | count + 1, relativeOffset =>
    8 ≤ t.commandSize relativeOffset ∧
      relativeOffset + t.commandSize relativeOffset ≤ t.commandBytes ∧
      t.Tiles count (relativeOffset + t.commandSize relativeOffset)

variable {progress' : Progress}

/-- A command that passes its checks has a size and lies in the table. -/
theorem step_eq_some (h : t.step relativeOffset progress = some progress') :
    8 ≤ t.commandSize relativeOffset ∧
      relativeOffset + t.commandSize relativeOffset ≤ t.commandBytes ∧
      validateLoadCommand (t.commandType relativeOffset) (t.command relativeOffset) t.container
        progress = some progress' := by
  unfold step at h
  split at h
  · simp at h
  next hchecks =>
    simp only [Bool.not_eq_true, Bool.or_eq_false_iff, decide_eq_false_iff_not, Nat.not_lt,
      Bool.not_eq_false', rangeFits_iff] at hchecks
    exact ⟨hchecks.1.1.1, hchecks.2, h⟩

/-- One round of the loop. -/
theorem parse_succ_eq_ok {result : ℕ × Progress}
    (h : t.parse (remaining + 1) index relativeOffset progress = .ok result) :
    ∃ progress', t.step relativeOffset progress = some progress' ∧
      t.parse remaining (index + 1) ((relativeOffset + t.commandSize relativeOffset) % 2 ^ 32)
        progress' = .ok result := by
  rw [parse] at h
  split at h
  · simp at h
  · split at h
    · simp at h
    next progress' hstep => exact ⟨progress', hstep, h⟩

/-- **The commands of an accepted table tile it.** -/
theorem parse_tiles (hbytes : t.commandBytes < 2 ^ 32)
    (h : t.parse remaining index relativeOffset progress = .ok (t.commandBytes, progress')) :
    t.Tiles remaining relativeOffset := by
  induction remaining generalizing index relativeOffset progress with
  | zero => exact congrArg Prod.fst (ok.inj h)
  | succ _ ih =>
    obtain ⟨next, hstep, hrest⟩ := parse_succ_eq_ok h
    obtain ⟨hsize, hfits, -⟩ := step_eq_some hstep
    -- the sum stays in the table, so 32 bits hold it
    rw [Nat.mod_eq_of_lt (by omega)] at hrest
    exact ⟨hsize, hfits, ih hrest⟩

end CommandTable

/-! ## What the commands record -/

/-- Every byte of a range is one of `containerSize` bytes, and 64 bits hold its end. -/
structure RangeInside (offset size containerSize : ℕ) : Prop where
  no_wrap : offset + size < 2 ^ 64
  inside : ∀ i, offset ≤ i → i < offset + size → i < containerSize

theorem RangeInside.of_fits (h : offset + size ≤ containerSize)
    (hcontainer : containerSize < 2 ^ 64) : RangeInside offset size containerSize :=
  ⟨by omega, fun i _ hi => by omega⟩

/-- The ranges that the commands of a slice have recorded. -/
structure Recorded.InSlice (r : Recorded) (k : Container) : Prop where
  codeSignature : RangeInside r.codeSignatureOffset r.codeSignatureSize k.sliceSize
  encryption : RangeInside r.encryptionOffset r.encryptionSize k.sliceSize
  linkedit : RangeInside r.linkeditFileOffset r.linkeditFileSize k.sliceSize
  behind_commands : r.hasCodeSignature = true → k.commandsEnd ≤ r.codeSignatureOffset
  codeSignature_fits : r.codeSignatureOffset + r.codeSignatureSize ≤ k.sliceSize

theorem Recorded.inSlice_empty (k : Container) : ({} : Recorded).InSlice k where
  codeSignature := ⟨by decide, fun i _ hi => absurd hi (Nat.not_lt_zero i)⟩
  encryption := ⟨by decide, fun i _ hi => absurd hi (Nat.not_lt_zero i)⟩
  linkedit := ⟨by decide, fun i _ hi => absurd hi (Nat.not_lt_zero i)⟩
  behind_commands := fun h => absurd h (by decide)
  codeSignature_fits := Nat.zero_le _

section

variable {c : LoadCommand} {k : Container} {progress progress' : Progress}

theorem inSlice_validateSegment {structureSize sectionSize : ℕ} {segment : Segment}
    (hsize : k.sliceSize < 2 ^ 63)
    (h : validateSegment c k progress structureSize sectionSize segment = some progress')
    (hr : progress.1.InSlice k) : progress'.1.InSlice k := by
  simp only [validateSegment, ite_none_left_eq_some] at h
  obtain ⟨-, -, hrange, h⟩ := h
  simp only [Bool.not_eq_true, Bool.or_eq_false_iff, Bool.not_eq_false', rangeFits_iff] at hrange
  split at h
  · obtain ⟨-, h⟩ := ite_none_left_eq_some.mp h
    cases h
    exact { hr with linkedit := .of_fits hrange.1 (by omega) }
  · cases h
    exact hr

theorem inSlice_validateEncryption {is64Bit : Bool} (hsize : k.sliceSize < 2 ^ 63)
    (h : validateEncryption c k progress is64Bit = some progress')
    (hr : progress.1.InSlice k) : progress'.1.InSlice k := by
  have hoffset := c.uint32_lt 8
  simp only [validateEncryption, ite_none_left_eq_some, some.injEq] at h
  obtain ⟨-, hrange, rfl⟩ := h
  refine { hr with encryption := ?_ }
  simp only [Bool.and_eq_true, bne_iff_ne, ne_eq, Bool.or_eq_true, Bool.not_eq_true',
    not_and, not_or, Bool.not_eq_false, rangeFits_iff] at hrange
  by_cases hempty : c.uint32 12 = 0
  · -- an empty range is recorded with any offset
    simp only [hempty]
    exact ⟨by omega, fun i hi hlt => absurd hlt (by omega)⟩
  · exact .of_fits (hrange hempty).2 (by omega)

theorem inSlice_validateCodeSignature (hsize : k.sliceSize < 2 ^ 63)
    (h : validateCodeSignature c k progress = some progress')
    (hr : progress.1.InSlice k) : progress'.1.InSlice k := by
  simp only [validateCodeSignature, ite_none_left_eq_some, some.injEq] at h
  obtain ⟨-, hrange, rfl⟩ := h
  simp only [Bool.or_eq_true, decide_eq_true_eq, Bool.not_eq_true', not_or, Nat.not_lt,
    Bool.not_eq_false, rangeFits_iff] at hrange
  exact { hr with
    codeSignature := .of_fits hrange.2 (by omega)
    behind_commands := fun _ => hrange.1.2
    codeSignature_fits := hrange.2 }

theorem inSlice_validateBuildVersion (h : validateBuildVersion c progress = some progress')
    (hr : progress.1.InSlice k) : progress'.1.InSlice k := by
  simp only [validateBuildVersion, ite_none_left_eq_some, some.injEq] at h
  obtain ⟨-, -, rfl⟩ := h
  exact { hr with }

variable {commandType : ℕ}

theorem inSlice_validateVersionMin
    (h : validateVersionMin c progress commandType = some progress') (hr : progress.1.InSlice k) :
    progress'.1.InSlice k := by
  obtain ⟨-, h⟩ := ite_none_left_eq_some.mp h
  split at h
  · cases h
    exact hr
  · obtain ⟨-, h⟩ := ite_none_left_eq_some.mp h
    cases h
    exact { hr with }

/-- A check without effect. -/
theorem inSlice_of_ite {condition : Prop} [Decidable condition]
    (h : (if condition then some progress else none) = some progress')
    (hr : progress.1.InSlice k) : progress'.1.InSlice k := by
  obtain ⟨-, h⟩ := ite_none_right_eq_some.mp h
  cases h
  exact hr

theorem inSlice_validateLinkeditDataCommand
    (h : validateLinkeditDataCommand c k progress = some progress')
    (hr : progress.1.InSlice k) : progress'.1.InSlice k := by
  obtain ⟨-, h⟩ := ite_none_left_eq_some.mp h
  unfold recordLinkeditDataRange at h
  split at h
  · exact inSlice_of_ite h hr
  · obtain ⟨-, h⟩ := ite_none_left_eq_some.mp h
    cases h
    exact hr

/-- No command records a range outside the slice. -/
theorem inSlice_validateLoadCommand (hsize : k.sliceSize < 2 ^ 63)
    (h : validateLoadCommand commandType c k progress = some progress')
    (hr : progress.1.InSlice k) : progress'.1.InSlice k := by
  unfold validateLoadCommand at h
  cases hkind : commandKind commandType <;> rw [hkind] at h
  case segment32 | segment64 =>
    exact inSlice_validateSegment hsize (ite_none_left_eq_some.mp h).2 hr
  case encryption is64Bit => exact inSlice_validateEncryption hsize h hr
  case codeSignature => exact inSlice_validateCodeSignature hsize h hr
  case string | sized | linkerOption | filesetEntry => exact inSlice_of_ite h hr
  case versionMin => exact inSlice_validateVersionMin h hr
  case buildVersion => exact inSlice_validateBuildVersion h hr
  case linkeditData => exact inSlice_validateLinkeditDataCommand h hr
  case unknown =>
    cases h
    exact hr

end

/-- **What the commands of a slice record lies in the slice.** -/
theorem CommandTable.parse_recorded (hsize : t.sliceSize < 2 ^ 63) {result : ℕ × Progress}
    (h : t.parse remaining index relativeOffset progress = .ok result)
    (hr : progress.1.InSlice t.container) : result.2.1.InSlice t.container := by
  induction remaining generalizing index relativeOffset progress with
  | zero =>
    cases h
    exact hr
  | succ _ ih =>
    obtain ⟨next, hstep, hrest⟩ := parse_succ_eq_ok h
    exact ih hrest (inSlice_validateLoadCommand hsize (step_eq_some hstep).2.2 hr)

/-- What a parsed slice has recorded lies in it, and its signature behind its load commands. -/
theorem SliceParsed.inSlice (h : SliceParsed heap file slice) : slice.toRecorded.InSlice
      ⟨slice.is32Bit, slice.size, slice.headerSize + slice.loadCommandBytes⟩ := by
  have hfile := h.in_file
  have hlength := file.length_lt
  obtain ⟨form, state, hchecked, hslice⟩ := h.checked
  obtain ⟨-, -, -, -, -, hend⟩ := tableIsValid_iff.mp hchecked.table
  have hinside := CommandTable.parse_recorded
    (t := commandTable file.bytes slice.offset slice.size form)
    (by simp only [commandTable]; omega) hchecked.commands (Recorded.inSlice_empty _)
  have hcontainer : (commandTable file.bytes slice.offset slice.size form).container
      = ⟨slice.is32Bit, slice.size, slice.headerSize + slice.loadCommandBytes⟩ := by
    simp only [CommandTable.container, CommandTable.commandsEnd, commandTable]
    rw [Nat.mod_eq_of_lt (by omega)]
    have hwidth : slice.is32Bit = form.is32Bit := by rw [hslice]; rfl
    have hheader : slice.headerSize = form.headerSize := by rw [hslice]; rfl
    have hbytes : slice.loadCommandBytes = headerField file.bytes slice.offset form 20 := by
      rw [hslice]; rfl
    rw [hwidth, hheader, hbytes]
  rw [hcontainer] at hinside
  exact hinside

end LiveExec32.MachO
