import LiveExec32.MachO.Output
import LiveExec32.MachO.Slices

/-! # Copying a slice and comparing it

A copy is one write of the slice's content, whatever pieces it is made in (`copyToFD_eq_writeAt`),
and the comparison finds that content and nothing else (`matchesChunks_iff`). The system is free to
take or give less than it was asked for; the loops of `LC32ReadAt` and `LC32WriteAt` hide that
(`readAtInPieces_eq`, `writeAtInPieces_eq`). -/

namespace LiveExec32.MachO

open List Bytes OutputSlice Except

attribute [ext] File

/-! ## Contents -/

namespace OutputSlice

/-- The bytes of the source. -/
def sourceByte (s : OutputSlice) : Bytes :=
  match s.source with
  | .file file offset => file.bytes.shift offset
  | .memory bytes => bytes

/-- The bytes an output slice is meant to have: the source, overlaid with the replacement. -/
def content (s : OutputSlice) : Bytes := fun i =>
  match s.replacementBytes with
  | none => s.sourceByte i
  | some bytes =>
    if s.replacementOffset ≤ i ∧ i < s.replacementOffset + s.replacementSize then
      bytes (i - s.replacementOffset)
    else s.sourceByte i

/-- All of the source can be read. -/
def Readable (s : OutputSlice) : Prop :=
  match s.source with
  | .file file offset => offset + s.size ≤ file.length
  | .memory _ => True

end OutputSlice

variable {file : File} {s : OutputSlice} {bufferSize destinationOffset : ℕ}

/-! ## Writes -/

/-- The length of a file after a write. -/
def lengthAfter (length offset size : ℕ) : ℕ :=
  if size = 0 then length else max length (offset + size)

variable {out : File} {data : List UInt8} {offset : ℕ}

theorem writeAt_eq_ok : writeAt file data offset = .ok out ↔ offset + data.length ≤ int64Max ∧
      out.bytes = file.bytes.write offset data ∧
      out.length = lengthAfter file.length offset data.length := by
  unfold writeAt lengthAfter
  split
  · refine ⟨nofun, fun h => ?_⟩
    omega
  · simp only [ok.injEq, File.ext_iff, length_eq_zero_iff]
    constructor
    · rintro ⟨hbytes, hlength⟩
      exact ⟨by omega, hbytes.symm, hlength.symm⟩
    · rintro ⟨-, hbytes, hlength⟩
      exact ⟨hbytes.symm, hlength.symm⟩

/-- A write that an `off_t` can not reach. -/
theorem writeAt_of_lt (h : int64Max < offset + data.length) :
    writeAt file data offset = .error "Value too large to be stored in data type" := by
  rw [writeAt, dif_pos (by omega)]

theorem writeAt_of_le (file : File) (h : offset + data.length ≤ int64Max) :
    ∃ out, writeAt file data offset = .ok out := by
  rw [writeAt, dif_neg (by omega)]
  exact ⟨_, rfl⟩

/-- A write inside a file leaves its length. -/
theorem writeAt_of_fits (hfits : offset + data.length ≤ file.length) :
    writeAt file data offset = .ok (file.put offset data) := by
  have hlength := file.length_lt
  refine writeAt_eq_ok.mpr ⟨?_, rfl, ?_⟩
  · simp only [int64Max]
    omega
  · rw [lengthAfter, File.put]
    split
    · rfl
    · exact (Nat.max_eq_left hfits).symm

/-- Two writes one behind the other are one. -/
theorem writeAt_append {mid : File} {first second : List UInt8}
    (hfirst : writeAt file first offset = .ok mid) :
    writeAt file (first ++ second) offset = writeAt mid second (offset + first.length) := by
  obtain ⟨-, hbytes, hlength⟩ := writeAt_eq_ok.mp hfirst
  rcases Nat.lt_or_ge int64Max (offset + first.length + second.length) with hlarge | hsmall
  · rw [writeAt_of_lt hlarge, writeAt_of_lt (by
      rw [length_append]
      omega)]
  · obtain ⟨out, hout⟩ := writeAt_of_le mid hsmall
    rw [hout]
    obtain ⟨-, hbytes', hlength'⟩ := writeAt_eq_ok.mp hout
    refine writeAt_eq_ok.mpr ⟨?_, ?_, ?_⟩
    · rw [length_append]
      omega
    · rw [hbytes', hbytes, write_append]
    · rw [hlength', hlength, length_append]
      unfold lengthAfter
      split_ifs <;> omega

/-! ## Short counts -/

/-- The loop of `LC32ReadAt`. Where it asks for the bytes from `completed` on, `pread` gives at
    least one and at most `short completed` of those that the file has there. -/
def readPieces (file : File) (short : ℕ → ℕ) (size offset : ℕ) :
    (rounds completed : ℕ) → Bytes → Except String Bytes
  | 0, _, buffer => .ok buffer
  | rounds + 1, completed, buffer =>
    if size ≤ completed then .ok buffer
    else
      let amount := min (max 1 (short completed))
        (min (size - completed) (file.length - (offset + completed)))
      if amount = 0 then .error "Input/output error"
      else readPieces file short size offset rounds (completed + amount)
        (buffer.write completed (file.bytes.slice (offset + completed) amount))

/-- `LC32ReadAt`; every round reads something, so `size` rounds do. -/
def readAtInPieces (file : File) (short : ℕ → ℕ) (buffer : Bytes) (size offset : ℕ) :
    Except String Bytes :=
  if offset > int64Max ∨ size > int64Max - offset then
    .error "Value too large to be stored in data type"
  else readPieces file short size offset size 0 buffer

/-- The loop of `LC32WriteAt`: each `pwrite` takes at least one byte and at most `short completed`.
    -/
def writePieces (short : ℕ → ℕ) (data : List UInt8) (offset : ℕ) :
    (rounds completed : ℕ) → File → Except String File
  | 0, _, file => .ok file
  | rounds + 1, completed, file =>
    if data.length ≤ completed then .ok file
    else do
      let amount := min (max 1 (short completed)) (data.length - completed)
      let file ← writeAt file ((data.drop completed).take amount) (offset + completed)
      writePieces short data offset rounds (completed + amount) file

/-- `LC32WriteAt`. -/
def writeAtInPieces (file : File) (short : ℕ → ℕ) (data : List UInt8) (offset : ℕ) :
    Except String File :=
  if offset > int64Max ∨ data.length > int64Max - offset then
    .error "Value too large to be stored in data type"
  else writePieces short data offset data.length 0 file

variable {size rounds completed : ℕ}

/-- The loop fills the buffer up to the end of the file, and it fails there. -/
theorem readPieces_eq (short : ℕ → ℕ) (buffer : Bytes) (hcompleted : completed ≤ size)
    (hrounds : size - completed ≤ rounds)
    (hread : completed = 0 ∨ offset + completed ≤ file.length) :
    readPieces file short size offset rounds completed
        (buffer.write 0 (file.bytes.slice offset completed))
      = if size ≠ 0 ∧ file.length < offset + size then .error "Input/output error"
        else .ok (buffer.write 0 (file.bytes.slice offset size)) := by
  induction rounds generalizing completed with
  | zero =>
    have hdone : completed = size := by omega
    subst hdone
    rw [readPieces, if_neg (by omega)]
  | succ _ ih =>
    rw [readPieces]
    split
    · rename_i hdone
      obtain rfl := Nat.le_antisymm hcompleted hdone
      rw [if_neg (by omega)]
    · simp only
      generalize hamount : min (max 1 (short completed))
        (min (size - completed) (file.length - (offset + completed))) = amount
      split
      · rw [if_pos (by omega)]
      · have hput : (buffer.write 0 (file.bytes.slice offset completed)).write completed
            (file.bytes.slice (offset + completed) amount)
            = buffer.write 0 (file.bytes.slice offset (completed + amount)) := by
          rw [slice_add, write_append, length_slice, Nat.zero_add]
        rw [hput]
        exact ih (by omega) (by omega) (by omega)

/-- **Short reads do not show.** -/
theorem readAtInPieces_eq (file : File) (short : ℕ → ℕ) (buffer : Bytes) (size offset : ℕ) :
    (readAtInPieces file short buffer size offset).map (window · 0 size)
      = readAt file size offset := by
  have hempty : buffer = buffer.write 0 (file.bytes.slice offset 0) := by simp [slice]
  unfold readAtInPieces readAt
  split
  · rfl
  · rw [hempty, readPieces_eq short buffer (Nat.zero_le size) (Nat.sub_le size 0) (.inl rfl)]
    split
    · rfl
    · refine congrArg ok (window_congr fun i hi => ?_)
      rw [write_apply (by simpa using hi)]
      simp [slice, hi]

variable {current : File}

/-- The loop writes the rest of the data. -/
theorem writePieces_eq (short : ℕ → ℕ) (hfits : offset + data.length ≤ int64Max)
    (hcompleted : completed ≤ data.length) (hrounds : data.length - completed ≤ rounds)
    (hcurrent : writeAt file (data.take completed) offset = .ok current) :
    writePieces short data offset rounds completed current = writeAt file data offset := by
  induction rounds generalizing completed current with
  | zero =>
    obtain rfl : completed = data.length := by omega
    rw [writePieces, ← hcurrent, take_length]
  | succ _ ih =>
    rw [writePieces]
    split
    · rename_i hdone
      rw [← hcurrent, Nat.le_antisymm hcompleted hdone, take_length]
    · simp only
      generalize hamount : min (max 1 (short completed)) (data.length - completed) = amount
      obtain ⟨next, hnext⟩ := writeAt_of_le current
        (show offset + completed + ((data.drop completed).take amount).length ≤ int64Max by
          rw [length_take, length_drop]
          omega)
      rw [hnext, ok_bind]
      refine ih (by omega) (by omega) ?_
      rw [take_add, writeAt_append hcurrent, length_take, Nat.min_eq_left hcompleted, hnext]

/-- **Short writes do not show.** -/
theorem writeAtInPieces_eq (file : File) (short : ℕ → ℕ) (data : List UInt8) (offset : ℕ) :
    writeAtInPieces file short data offset = writeAt file data offset := by
  unfold writeAtInPieces
  split
  · rw [writeAt_of_lt (by omega)]
  · refine writePieces_eq short (by omega) (Nat.zero_le _) (Nat.sub_le _ _) ?_
    refine writeAt_eq_ok.mpr ⟨?_, by simp, by simp [lengthAfter]⟩
    rw [take_zero, length_nil]
    omega

/-! ## The copy -/

theorem readChunk_eq (hreadable : s.Readable) {amount : ℕ} (hfits : completed + amount ≤ s.size) :
    s.readChunk amount completed = .ok (s.sourceByte.window completed amount) := by
  cases hsource : s.source with
  | file file =>
    simp only [OutputSlice.Readable, hsource] at hreadable
    have hlength := file.length_lt
    simp only [readChunk, sourceByte, hsource]
    rw [Nat.mod_eq_of_lt (by omega), readAt_of_fits (by omega)]
    refine congrArg ok (window_congr fun i _ => ?_)
    simp only [shift, Nat.add_assoc]
  | memory => simp only [readChunk, sourceByte, hsource]

theorem chunkAmount_spec (s : OutputSlice) (hbuffer : bufferSize ≠ 0) (hmore : completed < s.size) :
    s.chunkAmount bufferSize completed ≠ 0 ∧
      completed + s.chunkAmount bufferSize completed ≤ s.size := by
  unfold chunkAmount
  split <;> omega

/-- The loop copies the rest of the source. -/
theorem copyChunks_eq (hreadable : s.Readable) (hbuffer : bufferSize ≠ 0)
    (hcompleted : completed ≤ s.size) (hrounds : s.size - completed ≤ rounds)
    (hcurrent : writeAt file (s.sourceByte.slice 0 completed) destinationOffset = .ok current) :
    s.copyChunks bufferSize destinationOffset rounds completed current
      = writeAt file (s.sourceByte.slice 0 s.size) destinationOffset := by
  induction rounds generalizing completed current with
  | zero =>
    obtain rfl : completed = s.size := by omega
    rw [copyChunks, hcurrent]
  | succ _ ih =>
    rw [copyChunks]
    split
    · rename_i hdone
      rw [← hcurrent, Nat.le_antisymm hcompleted hdone]
    · rename_i hmore
      obtain ⟨hamount, hnext⟩ := chunkAmount_spec s hbuffer (Nat.lt_of_not_le hmore)
      simp only
      generalize s.chunkAmount bufferSize completed = amount at hamount hnext
      obtain ⟨hplace, -⟩ := writeAt_eq_ok.mp hcurrent
      rw [length_slice] at hplace
      have hmax : int64Max = 2 ^ 63 - 1 := rfl
      rw [readChunk_eq hreadable hnext, ok_bind, slice_window, Nat.mod_eq_of_lt (by omega)]
      -- both ends fail where this piece is out of reach
      rcases Nat.lt_or_ge int64Max (destinationOffset + completed + amount) with hlarge | hsmall
      · rw [writeAt_of_lt (by simpa using hlarge), writeAt_of_lt (by
          rw [length_slice]
          omega)]
        rfl
      · obtain ⟨next, hwrite⟩ := writeAt_of_le current
          (show destinationOffset + completed + (s.sourceByte.slice completed amount).length
            ≤ int64Max by simpa using hsmall)
        rw [hwrite, ok_bind]
        refine ih hnext (by omega) ?_
        rw [slice_add, writeAt_append hcurrent, length_slice, Nat.zero_add, hwrite]

/-- The source, overlaid with the replacement, is the content. -/
theorem write_replacement {bytes : Bytes} (hbytes : s.replacementBytes = some bytes)
    (hfits : s.replacementOffset + s.replacementSize ≤ s.size) (m : Bytes) (offset : ℕ) :
    (m.write offset (s.sourceByte.slice 0 s.size)).write (offset + s.replacementOffset)
        (bytes.slice 0 s.replacementSize)
      = m.write offset (s.content.slice 0 s.size) := by
  funext i
  by_cases hi : offset ≤ i ∧ i < offset + s.size
  · obtain ⟨k, rfl⟩ := Nat.exists_eq_add_of_le hi.1
    have hk : k < s.size := by omega
    have hright : (m.write offset (s.content.slice 0 s.size)) (offset + k) = s.content k := by
      rw [write_apply (by simpa using hk)]
      simp [slice, hk]
    rw [hright, content, hbytes]
    simp only
    by_cases hover : s.replacementOffset ≤ k ∧ k < s.replacementOffset + s.replacementSize
    · obtain ⟨j, rfl⟩ := Nat.exists_eq_add_of_le hover.1
      rw [if_pos hover, ← Nat.add_assoc, write_apply (by simp; omega)]
      have hj : j < s.replacementSize := by omega
      simp [slice, hj]
    · rw [if_neg hover, write_of_outside (by simp; omega), write_apply (by simpa using hk)]
      simp [slice, hk]
  · rw [write_of_outside (by simp; omega), write_of_outside (by simp; omega),
      write_of_outside (by simp; omega)]

theorem content_of_none (hbytes : s.replacementBytes = none) : s.content = s.sourceByte := by
  funext i
  simp only [content, hbytes]

/-- **A copy is one write of what the slice is meant to have.** -/
theorem copyToFD_eq_writeAt (hreadable : s.Readable) (hvalid : s.replacementIsValid)
    (hbuffer : bufferSize ≠ 0) (hoffset : destinationOffset ≤ int64Max) :
    s.copyToFD bufferSize file destinationOffset
      = writeAt file (s.content.slice 0 s.size) destinationOffset := by
  have hempty : writeAt file (s.sourceByte.slice 0 0) destinationOffset = .ok file :=
    writeAt_eq_ok.mpr ⟨by simpa using hoffset, by simp [slice], by simp [lengthAfter]⟩
  rw [copyToFD, ensure_bind hvalid,
    copyChunks_eq hreadable hbuffer (Nat.zero_le _) (Nat.sub_le _ _) hempty]
  unfold replacementIsValid at hvalid
  cases hbytes : s.replacementBytes with
  | none =>
    rw [content_of_none hbytes]
    exact bind_pure _
  | some =>
    rw [hbytes] at hvalid
    simp only [rangeFits_iff] at hvalid ⊢
    rcases Nat.lt_or_ge int64Max (destinationOffset + s.size) with hlarge | hsmall
    · rw [writeAt_of_lt (by simpa using hlarge), writeAt_of_lt (by simpa using hlarge)]
      rfl
    · obtain ⟨copied, hcopied⟩ := writeAt_of_le file
        (show destinationOffset + (s.sourceByte.slice 0 s.size).length ≤ int64Max by
          simpa using hsmall)
      obtain ⟨out, hout⟩ := writeAt_of_le file
        (show destinationOffset + (s.content.slice 0 s.size).length ≤ int64Max by
          simpa using hsmall)
      obtain ⟨-, hcopiedBytes, hcopiedLength⟩ := writeAt_eq_ok.mp hcopied
      obtain ⟨-, houtBytes, houtLength⟩ := writeAt_eq_ok.mp hout
      have hmax : int64Max = 2 ^ 63 - 1 := rfl
      rw [hcopied, hout, ok_bind, Nat.mod_eq_of_lt (by omega)]
      refine writeAt_eq_ok.mpr ⟨?_, ?_, ?_⟩
      · rw [length_slice]
        omega
      · rw [houtBytes, hcopiedBytes, write_replacement hbytes hvalid]
      · rw [houtLength, hcopiedLength]
        simp only [length_slice, lengthAfter]
        split_ifs <;> omega

/-- A copied slice has the bytes it is meant to have. -/
theorem copyToFD_eq (hreadable : s.Readable) (hvalid : s.replacementIsValid)
    (hbuffer : bufferSize ≠ 0) (hfits : destinationOffset + s.size ≤ file.length) :
    s.copyToFD bufferSize file destinationOffset
      = .ok (file.put destinationOffset (s.content.slice 0 s.size)) := by
  have hlength := file.length_lt
  have hmax : int64Max = 2 ^ 63 - 1 := rfl
  rw [copyToFD_eq_writeAt hreadable hvalid hbuffer (by omega),
    writeAt_of_fits (by simpa using hfits)]

/-- What a copy to any place leaves when it succeeds. -/
theorem copyToFD_eq_ok (hreadable : s.Readable) (hbuffer : bufferSize ≠ 0)
    (hoffset : destinationOffset < 2 ^ 64)
    (h : s.copyToFD bufferSize file destinationOffset = .ok out) :
    out.bytes = file.bytes.write destinationOffset (s.content.slice 0 s.size) ∧
      out.length = lengthAfter file.length destinationOffset s.size := by
  obtain ⟨hvalid, h'⟩ := ensure_bind_eq_ok.mp h
  rcases Nat.lt_or_ge int64Max destinationOffset with hfar | hnear
  · -- nothing can be written there, so the slice is empty and has no replacement
    cases hsize : s.size with
    | zero =>
      rw [hsize, copyChunks, ok_bind] at h'
      cases hbytes : s.replacementBytes with
      | none =>
        rw [hbytes] at h'
        cases h'
        simp [slice, lengthAfter]
      | some =>
        simp only [replacementIsValid, hbytes, rangeFits_iff, hsize] at hvalid
        rw [hbytes] at h'
        simp only at h'
        rw [Nat.mod_eq_of_lt (by omega), writeAt_of_lt (by omega)] at h'
        simp at h'
    | succ =>
      obtain ⟨-, hnext⟩ := chunkAmount_spec s hbuffer (show 0 < s.size by omega)
      rw [hsize, copyChunks, if_neg (by omega)] at h'
      simp only at h'
      rw [readChunk_eq hreadable hnext, ok_bind, Nat.add_zero, Nat.mod_eq_of_lt hoffset,
        writeAt_of_lt (by omega)] at h'
      cases h'
  · rw [copyToFD_eq_writeAt hreadable hvalid hbuffer hnear] at h
    obtain ⟨-, hbytes, hlength⟩ := writeAt_eq_ok.mp h
    rw [length_slice] at hlength
    exact ⟨hbytes, hlength⟩

/-- A slice that was copied to any file has its bytes there. -/
theorem bytes_of_copyToFD (hreadable : s.Readable) (hbuffer : bufferSize ≠ 0)
    (hoffset : destinationOffset < 2 ^ 64)
    (h : s.copyToFD bufferSize file destinationOffset = .ok out) {i : ℕ} (hi : i < s.size) :
    out.bytes (destinationOffset + i) = s.content i := by
  rw [(copyToFD_eq_ok hreadable hbuffer hoffset h).1, write_apply (by simpa using hi)]
  simp [slice, hi]

/-! ## The comparison -/

/-- A piece of the source, overlaid, is a piece of the content. -/
theorem overlayChunk_apply (s : OutputSlice) {amount k : ℕ} (hk : k < amount) :
    s.overlayChunk amount completed (s.sourceByte.window completed amount) k
      = s.content (completed + k) := by
  unfold overlayChunk content
  cases s.replacementBytes with
  | none => exact window_apply hk
  | some =>
    simp only
    by_cases hinside : s.replacementOffset ≤ completed + k ∧
        completed + k < s.replacementOffset + s.replacementSize
    · have hstart : max completed s.replacementOffset - completed ≤ k := by omega
      obtain ⟨j, rfl⟩ := Nat.exists_eq_add_of_le hstart
      have hj : j < min (completed + amount) (s.replacementOffset + s.replacementSize)
          - max completed s.replacementOffset := by omega
      rw [if_pos hinside, if_pos (by omega), write_apply (by simpa using hj)]
      simp only [slice, getD_eq_getElem?_getD, getElem?_map,
        getElem?_range hj, Option.map_some, Option.getD_some]
      congr 1
      omega
    · split
      · rw [write_of_outside (by rw [length_slice]; omega), window_apply hk]
      · exact window_apply hk

theorem readAt_of_short (hsize : size ≠ 0) (hshort : file.length < offset + size) :
    ∃ message, readAt file size offset = .error message := by
  unfold readAt
  split
  · exact ⟨_, rfl⟩
  · exact ⟨_, if_pos ⟨hsize, hshort⟩⟩

/-- The bytes of the file from `fdOffset` on are there, and they are those of the slice, from the
    byte `start` to the end. -/
def HoldsFrom (file : File) (fdOffset : ℕ) (s : OutputSlice) (start : ℕ) : Prop :=
  ∀ i, start ≤ i → i < s.size → fdOffset + i < file.length ∧ file.bytes (fdOffset + i) = s.content i

variable {fdOffset : ℕ}

/-- The loop compares the rest of the slice. -/
theorem matchesChunks_iff (hreadable : s.Readable) (hbuffer : bufferSize ≠ 0)
    (hcompleted : completed ≤ s.size) (hrounds : s.size - completed ≤ rounds)
    (hplace : fdOffset + completed < 2 ^ 64) :
    s.matchesChunks bufferSize file fdOffset rounds completed ↔
      HoldsFrom file fdOffset s completed := by
  induction rounds generalizing completed with
  | zero => exact iff_of_true rfl fun i hi hlt => by omega
  | succ _ ih =>
    rw [matchesChunks]
    split
    · exact iff_of_true rfl fun i hi hlt => by omega
    · rename_i hmore
      obtain ⟨hamount, hnext⟩ := chunkAmount_spec s hbuffer (Nat.lt_of_not_le hmore)
      simp only
      generalize s.chunkAmount bufferSize completed = amount at hamount hnext
      rw [readChunk_eq hreadable hnext, Nat.mod_eq_of_lt hplace]
      rcases Nat.lt_or_ge file.length (fdOffset + completed + amount) with hshort | hfits
      · obtain ⟨message, hread⟩ := readAt_of_short hamount hshort
        rw [hread]
        refine iff_of_false nofun fun h => ?_
        have hlast := (h (completed + amount - 1) (by omega) (by omega)).1
        omega
      · have hlength := file.length_lt
        rw [readAt_of_fits hfits]
        simp only [Bool.and_eq_true, beq_iff_eq, ih hnext (by omega) (by omega)]
        constructor
        · rintro ⟨hsame, hrest⟩ i hi hlt
          rcases Nat.lt_or_ge i (completed + amount) with hin | hout
          · obtain ⟨k, rfl⟩ := Nat.exists_eq_add_of_le hi
            have hk : k < amount := by omega
            have hbyte := map_inj_left.mp hsame k (mem_range.mpr hk)
            rw [Nat.zero_add, overlayChunk_apply s hk, window_apply hk] at hbyte
            exact ⟨by omega, by rw [hbyte, Nat.add_assoc]⟩
          · exact hrest i hout hlt
        · intro h
          refine ⟨slice_congr fun k hk => ?_, fun i hi => h i (by omega)⟩
          rw [Nat.zero_add, overlayChunk_apply s hk, window_apply hk, Nat.add_assoc,
            (h (completed + k) (by omega) (by omega)).2]

theorem matchesFD_iff (hreadable : s.Readable) (hvalid : s.replacementIsValid)
    (hbuffer : bufferSize ≠ 0) (hoffset : fdOffset < 2 ^ 64) :
    s.matchesFD bufferSize file fdOffset ↔ HoldsFrom file fdOffset s 0 := by
  rw [matchesFD, hvalid, Bool.true_and]
  exact matchesChunks_iff hreadable hbuffer (Nat.zero_le _) (Nat.sub_le _ _) hoffset

/-- **A slice is found where it was copied to.** For a source that can be read, a replacement inside
    it and any buffer that holds a byte: however few bytes `pread` and `pwrite` move at a time,
    `LC32ReadAt` and `LC32WriteAt` do the same; a copy leaves the content in its range and every
    other byte as it was, and it can only fail where an `off_t` does not reach; the comparison
    accepts a file exactly if its range has the content, so it accepts what was copied. -/
theorem copyToFD_matchesFD (s : OutputSlice) (bufferSize offset : ℕ) (file : File)
    (hreadable : s.Readable) (hvalid : s.replacementIsValid = true) (hbuffer : bufferSize ≠ 0)
    (hoffset : offset < 2 ^ 64) :
    (∀ (f : File) (short : ℕ → ℕ) (buffer : Bytes) (size place : ℕ),
      (readAtInPieces f short buffer size place).map (Bytes.window · 0 size)
        = readAt f size place) ∧
    (∀ (f : File) (short : ℕ → ℕ) (data : List UInt8) (place : ℕ),
      writeAtInPieces f short data place = writeAt f data place) ∧
    (offset + s.size ≤ int64Max → ∃ out, s.copyToFD bufferSize file offset = .ok out) ∧
    (∀ out, s.copyToFD bufferSize file offset = .ok out →
      (∀ i < s.size, out.bytes (offset + i) = s.content i) ∧
      (∀ i, i < offset ∨ offset + s.size ≤ i → out.bytes i = file.bytes i) ∧
      out.length = lengthAfter file.length offset s.size ∧
      s.matchesFD bufferSize out offset = true) ∧
    (s.matchesFD bufferSize file offset = true ↔ HoldsFrom file offset s 0) := by
  refine ⟨readAtInPieces_eq, writeAtInPieces_eq, fun hfits => ?_, fun out hout => ?_,
    matchesFD_iff hreadable hvalid hbuffer hoffset⟩
  · rw [copyToFD_eq_writeAt hreadable hvalid hbuffer (by omega)]
    exact writeAt_of_le file (by simpa using hfits)
  · obtain ⟨hbytes, hlength⟩ := copyToFD_eq_ok hreadable hbuffer hoffset hout
    have hcontent := fun i => bytes_of_copyToFD (i := i) hreadable hbuffer hoffset hout
    refine ⟨hcontent, fun i hi => ?_, hlength, ?_⟩
    · rw [hbytes, write_of_outside (by simpa using hi)]
    · refine (matchesFD_iff hreadable hvalid hbuffer hoffset).mpr fun i _ hi => ⟨?_, hcontent i hi⟩
      rw [hlength, lengthAfter, if_neg (by omega)]
      omega

/-- Five bytes, the second and third of them replaced. -/
def spliced : OutputSlice where
  source := .memory fun i => UInt8.ofNat i
  replacementBytes := some fun _ => 9
  replacementOffset := 1
  replacementSize := 2
  size := 5
  cpuType := 12
  cpuSubtype := 9
  fileType := 6
  sourceAlignExponent := 14
  is64Bit := false
  encrypted := false

theorem copyToFD_matchesFD_spliced : ∃ out,
    spliced.copyToFD 2 (.zeros 4 (by decide)) 3 = .ok out ∧ out.length = 8 ∧
      spliced.matchesFD 2 out 3 = true := by
  obtain ⟨-, -, hcopies, hcopied, -⟩ := copyToFD_matchesFD spliced 2 3 (.zeros 4 (by decide))
    trivial (by decide) (by decide) (by decide)
  obtain ⟨out, hout⟩ := hcopies (by decide)
  obtain ⟨-, -, hlength, hmatches⟩ := hcopied out hout
  exact ⟨out, hout, hlength, hmatches⟩

end LiveExec32.MachO
